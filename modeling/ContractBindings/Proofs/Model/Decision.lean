import ContractBindings.Proofs.Ending
import ContractBindings.Proofs.Lookup
import ContractBindings.Proofs.Model.Definitions

/-!
# When lowering a definition succeeds

Lowering a schema inside a definition or operation ends with an answer exactly if the schema is clean: nothing in it is
without shape where that is rejected, and all its references lead to definitions that can be used (`lower_decides`). A node
that has a name already is not looked into, so this needs that identities tell the shapes of nodes (`Context.Discerns`), as
they do where nodes stand in one definition and nowhere else (`Context.Isolated`), and an invariant of the draft
(`Draft.Settled`): a recorded name is that of a clean node or of one that is still being lowered, and the shape of such a node
is larger than what stands in it.
-/

namespace ContractBindings.Lowering

/-! ## Clean schemas -/

/-- A shape that itself can be lowered: it is known or may be opaque, and its target can be used. -/
structure Context.Admits (c : Context) (s : Shape) : Prop where
  shaped : c.config.unknownFields = .reject → s ≠ .unknown ∧ s ≠ .array none
  usable : ∀ {t}, s = .reference t → (c.names.lookup t).isSome = true ∧ t ∉ c.failed

/-- A shape that can be lowered with all the nodes that stand in it. -/
structure Context.Clean (c : Context) (s : Shape) : Prop where
  admits : c.Admits s
  inside : ∀ {m}, s.Holds m → c.Admits m.shape

variable {c : Context}

theorem clean_iff {s : Shape} : c.Clean s ↔ c.Admits s ∧ ∀ m ∈ s.children, c.Clean m.shape := by
  constructor
  · exact fun h => ⟨h.admits, fun m hm => ⟨h.inside (.child hm), fun hk => h.inside (.deeper hm hk)⟩⟩
  · rintro ⟨hs, hchildren⟩
    refine ⟨hs, fun {k} hk => ?_⟩
    obtain ⟨m, hm, rfl | hk⟩ := hk.cases_children
    · exact (hchildren k hm).admits
    · exact (hchildren m hm).inside hk

section Shapes

theorem admits_of_shaped {s : Shape} (hu : s ≠ .unknown) (ha : s ≠ .array none) (hr : ∀ t, s ≠ .reference t) :
    c.Admits s := ⟨fun _ => ⟨hu, ha⟩, fun ht => absurd ht (hr _)⟩

@[simp]
theorem clean_primitive {kind : PrimitiveKind} {format : Option ValueFormat} : c.Clean (.primitive kind format) :=
  clean_iff.2 ⟨admits_of_shaped (by simp) (by simp) (by simp), by simp [Shape.children]⟩

@[simp]
theorem clean_enumeration {values : List Literal} : c.Clean (.enumeration values) :=
  clean_iff.2 ⟨admits_of_shaped (by simp) (by simp) (by simp), by simp [Shape.children]⟩

@[simp]
theorem clean_unknown : c.Clean .unknown ↔ c.config.unknownFields ≠ .reject := by
  refine ⟨fun h hr => (h.admits.shaped hr).1 rfl, fun h => clean_iff.2 ⟨⟨fun hr => absurd hr h, by simp⟩, ?_⟩⟩
  simp [Shape.children]

@[simp]
theorem clean_reference {t : SchemaId} :
    c.Clean (.reference t) ↔ (c.names.lookup t).isSome = true ∧ t ∉ c.failed := by
  refine ⟨fun h => h.admits.usable rfl, fun h => clean_iff.2 ⟨⟨by simp, fun ht => ?_⟩, by simp [Shape.children]⟩⟩
  cases ht
  exact h

@[simp]
theorem clean_array {items : Option SchemaNode} :
    c.Clean (.array items) ↔ items.elim (c.config.unknownFields ≠ .reject) fun n => c.Clean n.shape := by
  cases items with
  | none =>
    refine ⟨fun h hr => (h.admits.shaped hr).2 rfl, fun h => clean_iff.2 ⟨⟨fun hr => absurd hr h, by simp⟩, ?_⟩⟩
    simp [Shape.children]
  | some n => simp [clean_iff (s := .array (some n)), admits_of_shaped, Shape.children]

@[simp]
theorem clean_object {fields : List (String × SchemaNode)} {required : List String} {additional : Option SchemaNode} :
    c.Clean (.object fields required additional) ↔
      (∀ m ∈ fields.map (·.2), c.Clean m.shape) ∧ ∀ m ∈ additional.toList, c.Clean m.shape := by
  rw [clean_iff, Shape.children, List.forall_mem_append]
  exact and_iff_right (admits_of_shaped (by simp) (by simp) (by simp))

@[simp]
theorem clean_union {branches : List SchemaNode} {discriminator : Option Discriminator} :
    c.Clean (.union branches discriminator) ↔ ∀ m ∈ branches, c.Clean m.shape := by
  rw [clean_iff, Shape.children]
  exact and_iff_right (admits_of_shaped (by simp) (by simp) (by simp))

@[simp]
theorem clean_intersection {parts : List SchemaNode} :
    c.Clean (.intersection parts) ↔ ∀ m ∈ parts, c.Clean m.shape := by
  rw [clean_iff, Shape.children]
  exact and_iff_right (admits_of_shaped (by simp) (by simp) (by simp))

end Shapes

/-! ## Nodes that are known by their identities -/

/-- The shape becomes a type of its own, and can be lowered. -/
structure Context.Forms (c : Context) (s : Shape) : Prop where
  composite : isComposite s = true
  clean : c.Clean s

/-- Identities tell the nodes of a set that become types: one that was named before forms a type, and one with the identity of
a definition is clean exactly if the definition can be used. -/
structure Context.Discerns (c : Context) (inner : SchemaNode → Prop) : Prop where
  named : ∀ {m}, inner m → m.id ∈ c.inlineNames.map (·.1) → c.Forms m.shape
  defined : ∀ {m}, inner m → c.graph.defines m.id = true →
    (c.Clean m.shape ↔ (c.names.lookup m.id).isSome = true ∧ m.id ∉ c.failed)
  unique : ∀ {m m'}, inner m → inner m' → m.id = m'.id → isComposite m'.shape = true → m.shape = m'.shape
  children : ∀ {m k}, inner m → k ∈ m.shape.children → inner k

/-- The nodes of a set are known by their identities, and none of them is a definition or was named before. -/
structure Context.Isolated (c : Context) (inner : SchemaNode → Prop) : Prop where
  fresh : c.inlineNames = []
  inline : ∀ {m}, inner m → c.graph.defines m.id = false
  unique : ∀ {m m'}, inner m → inner m' → m.id = m'.id → m = m'
  children : ∀ {m k}, inner m → k ∈ m.shape.children → inner k

theorem Context.Isolated.discerns {inner : SchemaNode → Prop} (h : c.Isolated inner) : c.Discerns inner where
  named := by
    intro m _ hnamed
    rw [h.fresh] at hnamed
    cases hnamed
  defined := by
    intro m hm hdefined
    rw [h.inline hm] at hdefined
    cases hdefined
  unique := fun hm hm' heq _ => congrArg SchemaNode.shape (h.unique hm hm' heq)
  children := h.children

section Decides

variable {inner : SchemaNode → Prop} {bound : Nat}

/-- The nodes with recorded names form types, or their shapes are no smaller than the bound. -/
def Draft.Settled (c : Context) (inner : SchemaNode → Prop) (bound : Nat) (s : Draft) : Prop :=
  ∀ m, inner m → m.id ∈ s.inlineNames.map (·.1) → c.Forms m.shape ∨ bound ≤ sizeOf m.shape

/-- The nodes whose names were recorded on the way form types. -/
def Draft.Cleanly (c : Context) (inner : SchemaNode → Prop) (s s' : Draft) : Prop :=
  ∀ m, inner m → m.id ∈ s'.inlineNames.map (·.1) → m.id ∈ s.inlineNames.map (·.1) ∨ c.Forms m.shape

variable {s s' s'' : Draft}

theorem Draft.Cleanly.refl (c : Context) (inner : SchemaNode → Prop) (s : Draft) : Draft.Cleanly c inner s s :=
  fun _ _ h => .inl h

theorem Draft.Cleanly.trans (h : Draft.Cleanly c inner s s') (h' : Draft.Cleanly c inner s' s'') :
    Draft.Cleanly c inner s s'' :=
  fun m hm hid => (h' m hm hid).elim (h m hm) .inr

theorem Draft.Settled.after (h : Draft.Settled c inner bound s) (h' : Draft.Cleanly c inner s s') :
    Draft.Settled c inner bound s' :=
  fun m hm hid => (h' m hm hid).elim (h m hm) .inl

theorem Draft.settled_start (r : Naming.Registry) : Draft.Settled c inner bound (Draft.start r) := by
  simp [Draft.Settled, Draft.start]

/-- A computation that ends with an answer exactly if something holds, as long as what is being lowered is no smaller
than the bound. -/
def Decides (c : Context) (inner : SchemaNode → Prop) (bound : Nat) (x : Lower α) (P : Prop) : Prop :=
  ∀ s, Draft.Settled c inner bound s → Ends x s (fun _ s' => P ∧ Draft.Cleanly c inner s s') fun _ _ => ¬ P

namespace Decides

variable {x : Lower α} {P P' Q : Prop}

theorem congr (hx : Decides c inner bound x P) (h : P ↔ P') : Decides c inner bound x P' := propext h ▸ hx

theorem pure {a : α} (h : P) : Decides c inner bound (Pure.pure a : Lower α) P :=
  fun s _ => ends_pure.2 ⟨h, .refl c inner s⟩

theorem throw {e : Diagnostic} (h : ¬ P) : Decides c inner bound (MonadExcept.throw e : Lower α) P :=
  fun _ _ => ends_throw.2 h

theorem bind {f : α → Lower β} (hx : Decides c inner bound x P) (hf : ∀ a, Decides c inner bound (f a) Q) :
    Decides c inner bound (x >>= f) (P ∧ Q) := by
  intro s hs
  refine ends_bind.2 ((hx s hs).mono ?_ fun _ _ h hpq => h hpq.1)
  rintro a s' ⟨hp, hc⟩
  refine (hf a s' (hs.after hc)).mono ?_ fun _ _ h hpq => h hpq.2
  rintro b s'' ⟨hq, hc'⟩
  exact ⟨⟨hp, hq⟩, hc.trans hc'⟩

/-- What follows always succeeds. -/
theorem andThen {f : α → Lower β} (hx : Decides c inner bound x P) (hf : ∀ a, Decides c inner bound (f a) True) :
    Decides c inner bound (x >>= f) P := (hx.bind hf).congr (and_iff_left trivial)

/-- What went before always succeeds. -/
theorem after {f : α → Lower β} (hx : Decides c inner bound x True) (hf : ∀ a, Decides c inner bound (f a) P) :
    Decides c inner bound (x >>= f) P := (hx.bind hf).congr (and_iff_right trivial)

theorem map {f : α → β} (hx : Decides c inner bound x P) : Decides c inner bound (f <$> x) P :=
  fun s hs => ends_map.2 (hx s hs)

theorem warn (code : DiagnosticCode) (message : String) : Decides c inner bound (Lowering.warn c code message) True :=
  fun _ _ => ends_modify.2 ⟨trivial, fun _ _ h => .inl h⟩

theorem contained (type : TypeDescriptor) (id : SchemaId) :
    Decides c inner bound (Lowering.contained c type id) True := by
  unfold Lowering.contained
  split
  · exact (warn _ _).after fun _ => pure trivial
  · exact pure trivial

theorem unionBody (name : String) (branches : List SchemaNode) (discriminator : Option Discriminator)
    (types : List TypeDescriptor) :
    Decides c inner bound (Lowering.unionBody c name branches discriminator types) True := by
  obtain ⟨x, hx, hbody⟩ := unionBody_as c name branches discriminator types
  rw [hbody]
  cases hx with
  | downgraded _ => exact (warn _ _).after fun _ => pure trivial
  | plain _ => exact pure trivial
  | tagged _ _ _ => exact pure trivial
  | dropped _ _ => exact (warn _ _).after fun _ => pure trivial

theorem unknownShape (id : SchemaId) :
    Decides c inner bound (Lowering.unknownShape c id .nested) (c.config.unknownFields ≠ .reject) := by
  unfold Lowering.unknownShape
  dsimp only
  cases hp : c.config.unknownFields with
  | reject => exact throw (by simp)
  | opaqueValue =>
    refine Decides.congr (P := True) ?_ (by simp)
    exact (warn _ _).after fun _ => pure trivial

theorem useDefinition (t : SchemaId) : Decides c inner bound (Lowering.useDefinition c t)
    ((c.names.lookup t).isSome = true ∧ t ∉ c.failed) := by
  refine fun s _ => (useDefinition_ends c t s).mono ?_ fun _ _ h => h
  rintro kind s' ⟨⟨name, _, -, hname⟩, hfailed, rfl⟩
  exact ⟨⟨by simp [hname], hfailed⟩, .refl c inner _⟩

/-- A node that becomes a type is recorded while what stands in it is lowered. -/
theorem defineInline {n : SchemaNode} {id : SchemaId} {title doc : Option String} {hint : String}
    {body : String → Lower TypeBody} (hc : c.Discerns inner) (hn : inner n) (hid : n.id = id)
    (hcomposite : isComposite n.shape = true) (hlt : sizeOf n.shape < bound)
    (hbody : ∀ name, Decides c inner (sizeOf n.shape) (body name) (c.Clean n.shape)) :
    Decides c inner bound (Lowering.defineInline id title doc hint body) (c.Clean n.shape) := by
  intro s hs
  rw [ends_defineInline]
  refine (hbody _ _ ?_).mono ?_ fun _ _ h => h
  · intro m hm hrecorded
    rw [List.map_append, List.mem_append] at hrecorded
    rcases hrecorded with hrecorded | hrecorded
    · exact (hs m hm hrecorded).imp_right fun h => Nat.le_trans (Nat.le_of_lt hlt) h
    · have heq : m.shape = n.shape := hc.unique hm hn (by simpa [hid] using hrecorded) hcomposite
      exact .inr (heq ▸ Nat.le_refl _)
  · rintro b s' ⟨hclean, hnew⟩
    refine ⟨hclean, fun m hm hrecorded => ?_⟩
    rcases hnew m hm hrecorded with hrecorded | hm'
    · rw [List.map_append, List.mem_append] at hrecorded
      refine hrecorded.imp_right fun hrecorded => ?_
      have heq : m.shape = n.shape := hc.unique hm hn (by simpa [hid] using hrecorded) hcomposite
      exact heq ▸ ⟨hcomposite, hclean⟩
    · exact .inr hm'

/-- A node that has a name is used by it, and one that is a definition by that, without looking inside. -/
theorem known? {node : SchemaNode} (hc : c.Discerns inner) (hn : inner node) (hlt : sizeOf node.shape < bound)
    (hs : Draft.Settled c inner bound s) :
    Ends (Lowering.known? c node .nested) s
      (fun type s' => Draft.Cleanly c inner s s' ∧ (type = none → s' = s) ∧ (type.isSome = true → c.Clean node.shape))
      fun _ _ => ¬ c.Clean node.shape := by
  obtain ⟨x, hx, hrun⟩ := known?_as c node .nested s
  refine .of_run_eq hrun ?_
  cases hx with
  | refused hpayload _ _ => cases hpayload
  | definition hdefined =>
    have huse : Decides c inner bound (Lowering.useDefinition c node.id) (c.Clean node.shape) :=
      (useDefinition node.id).congr (hc.defined hn hdefined).symm
    refine ends_bind.2 ((huse s hs).mono (fun kind s' h => ?_) fun _ _ h => h)
    exact ends_pure.2 ⟨h.2, by simp, fun _ => h.1⟩
  | named _ hname =>
    refine ends_pure.2 ⟨.refl _ _ _, by simp, fun _ => ?_⟩
    rcases hname with hname | hname
    · exact (hc.named hn (List.mem_map_of_mem (f := (·.1)) hname)).clean
    · rcases hs node hn (List.mem_map_of_mem (f := (·.1)) hname) with hforms | hle
      · exact hforms.clean
      · omega
  | new _ _ _ => exact ends_pure.2 ⟨.refl _ _ _, fun _ => rfl, by simp⟩

end Decides

/-! ## Lowering a schema -/

/-- Lowering each node of a list succeeds exactly if it is clean, whatever the type is named after that it may become. -/
def Decides.Nodes (c : Context) (inner : SchemaNode → Prop) (bound : Nat) (nodes : List SchemaNode) : Prop :=
  ∀ n ∈ nodes, ∀ hint, Decides c inner bound (lower c hint .nested n) (c.Clean n.shape)

section Shapes

variable (hint name : String)

theorem lowerOr_decides {absent : Lower TypeDescriptor} {P : Prop} (habsent : Decides c inner bound absent P) :
    ∀ {n : Option SchemaNode}, Decides.Nodes c inner bound n.toList →
      Decides c inner bound (lowerOr c hint absent n) (n.elim P fun n => c.Clean n.shape)
  | some node, hn => hn node (by simp) hint
  | none, _ => habsent

theorem lowerOption_decides : ∀ {n : Option SchemaNode}, Decides.Nodes c inner bound n.toList →
    Decides c inner bound (lowerOption c hint n) (∀ m ∈ n.toList, c.Clean m.shape)
  | some node, hn => (Decides.map (hn node (by simp) hint)).congr (by simp)
  | none, _ => .pure (by simp)

theorem lowerFields_decides (required : List String) : ∀ (r : Naming.Registry) {fields : List (String × SchemaNode)},
    Decides.Nodes c inner bound (fields.map (·.2)) →
      Decides c inner bound (lowerFields c name required r fields) (∀ m ∈ fields.map (·.2), c.Clean m.shape)
  | _, [], _ => .pure (by simp)
  | _, (wire, node) :: rest, hn => by
    obtain ⟨hnode, hrest⟩ := List.forall_mem_cons.1 hn
    rw [lowerFields, List.map_cons, List.forall_mem_cons]
    exact (hnode _).bind fun type => (lowerFields_decides required _ hrest).andThen fun p => Decides.pure trivial

theorem lowerBranches_decides : ∀ (number : Nat) {branches : List SchemaNode}, Decides.Nodes c inner bound branches →
    Decides c inner bound (lowerBranches c name number branches) (∀ m ∈ branches, c.Clean m.shape)
  | _, [], _ => .pure (by simp)
  | _, node :: rest, hn => by
    obtain ⟨hnode, hrest⟩ := List.forall_mem_cons.1 hn
    rw [lowerBranches, List.forall_mem_cons]
    exact (hnode _).bind fun type => (lowerBranches_decides _ hrest).andThen fun types => Decides.pure trivial

theorem lowerParts_decides : ∀ (number : Nat) (r : Naming.Registry) {parts : List SchemaNode},
    Decides.Nodes c inner bound parts →
      Decides c inner bound (lowerParts c name number r parts) (∀ m ∈ parts, c.Clean m.shape)
  | _, _, [], _ => .pure (by simp)
  | _, _, node :: rest, hn => by
    obtain ⟨hnode, hrest⟩ := List.forall_mem_cons.1 hn
    rw [lowerParts, List.forall_mem_cons]
    exact (hnode _).bind fun type => (lowerParts_decides _ _ hrest).andThen fun fields => Decides.pure trivial

/-- A shape that becomes no type of its own is described exactly if it is clean. -/
theorem describe_decides (id : SchemaId) {shape : Shape} (hplain : isComposite shape = false)
    (hchildren : Decides.Nodes c inner bound shape.children) :
    Decides c inner bound (describe c id hint .nested shape) (c.Clean shape) := by
  cases shape with
  | primitive kind format => exact Decides.pure clean_primitive
  | array items =>
    rw [describe]
    refine ((lowerOr_decides _ (Decides.unknownShape _) hchildren).andThen fun item => ?_).congr clean_array.symm
    exact (Decides.contained _ id).andThen fun _ => Decides.pure trivial
  | object fields required additional =>
    obtain ⟨rfl, hadditional⟩ : fields = [] ∧ additional.isSome = true := by simpa [isComposite] using hplain
    obtain ⟨n, rfl⟩ := Option.isSome_iff_exists.1 hadditional
    rw [describe]
    refine ((lowerOr_decides _ (Decides.unknownShape _) hchildren).andThen fun value => ?_).congr (by simp)
    exact (Decides.contained _ id).andThen fun _ => Decides.pure trivial
  | enumeration values =>
    rw [describe]
    exact (Decides.warn _ _).after fun _ => Decides.pure clean_enumeration
  | reference target =>
    rw [describe]
    exact (Decides.map (Decides.useDefinition target)).congr clean_reference.symm
  | unknown => exact (Decides.unknownShape id).congr clean_unknown.symm
  | union branches discriminator => simp [isComposite] at hplain
  | intersection parts => simp [isComposite] at hplain

/-- A shape that becomes a type has a body exactly if it is clean. -/
theorem compose_decides (id : SchemaId) {shape : Shape} (hcomposite : isComposite shape = true)
    (hchildren : Decides.Nodes c inner bound shape.children) :
    Decides c inner bound (compose c id name shape) (c.Clean shape) := by
  cases shape with
  | object fields required additional =>
    obtain ⟨hfields, hadditional⟩ := List.forall_mem_append.1 hchildren
    rw [compose]
    refine ((lowerFields_decides name required _ hfields).bind fun p => ?_).congr clean_object.symm
    refine (lowerOption_decides _ hadditional).andThen fun value => ?_
    cases value with
    | some value => exact (Decides.contained _ id).andThen fun _ => Decides.pure trivial
    | none => exact Decides.pure trivial
  | enumeration values => exact Decides.pure clean_enumeration
  | union branches discriminator =>
    rw [compose]
    refine ((lowerBranches_decides name 1 hchildren).andThen fun types => ?_).congr clean_union.symm
    exact Decides.unionBody _ _ _ _
  | intersection parts =>
    rw [compose]
    refine ((lowerParts_decides name 1 _ hchildren).andThen fun fields => ?_).congr clean_intersection.symm
    exact Decides.pure trivial
  | primitive kind format => simp [isComposite] at hcomposite
  | array items => simp [isComposite] at hcomposite
  | reference target => simp [isComposite] at hcomposite
  | unknown => simp [isComposite] at hcomposite

end Shapes

/-- Lowering a node succeeds exactly if it is clean. -/
theorem lower_decides (hc : c.Discerns inner) (n : SchemaNode) (hn : inner n) (hlt : sizeOf n.shape < bound)
    (hint : String) : Decides c inner bound (lower c hint .nested n) (c.Clean n.shape) := by
  induction n using SchemaNode.inductionOnChildren generalizing bound hint with
  | step n ih =>
    obtain ⟨id, title, description, nullable, shape⟩ := n
    -- what stands in a node that becomes a type is lowered below the size of its shape, so that the node counts as larger
    have hchildren {bound : Nat} (hle : sizeOf shape ≤ bound) : Decides.Nodes c inner bound shape.children := by
      intro m hm hint
      have hsmaller : sizeOf m.shape < sizeOf shape := Nat.lt_trans m.sizeOf_shape_lt (sizeOf_lt_of_mem_children hm)
      exact ih m hm (hc.children hn hm) (Nat.lt_of_lt_of_le hsmaller hle) hint
    intro s hs
    rw [lower]
    refine ends_bind.2 ((Decides.known? hc hn hlt hs).mono ?_ fun _ _ h => h)
    rintro type s' ⟨hsame, hnone, hsome⟩
    cases type with
    | some type => exact ends_pure.2 ⟨hsome rfl, hsame⟩
    | none =>
      obtain rfl := hnone rfl
      dsimp only
      split
      · next hcomposite =>
        refine Decides.andThen (Decides.map ?_) (fun type => Decides.pure trivial) s' hs
        exact Decides.defineInline hc hn rfl hcomposite hlt fun name =>
          compose_decides name id hcomposite (hchildren (Nat.le_refl _))
      · next hplain =>
        refine Decides.andThen ?_ (fun type => Decides.pure trivial) s' hs
        exact describe_decides hint id (by simpa using hplain) (hchildren (Nat.le_of_lt hlt))

/-- Lowering a definition succeeds exactly if its shape is clean. -/
theorem lowerDefinition_decides (hc : c.Isolated inner) (id : SchemaId) (name : String) {node : SchemaNode}
    (hinner : ∀ m ∈ node.shape.children, inner m) (r : Naming.Registry) :
    Ends (lowerDefinition c id name node) (Draft.start r) (fun _ _ => c.Clean node.shape)
      fun _ _ => ¬ c.Clean node.shape := by
  have hchildren : Decides.Nodes c inner (sizeOf node.shape) node.shape.children := fun m hm hint =>
    lower_decides hc.discerns m (hinner m hm) (Nat.lt_trans m.sizeOf_shape_lt (sizeOf_lt_of_mem_children hm)) hint
  have hsettled : Draft.Settled c inner (sizeOf node.shape) (Draft.start r) := Draft.settled_start r
  unfold lowerDefinition
  split
  · next hcomposite =>
    refine ends_bind.2 ((compose_decides name id hcomposite hchildren _ hsettled).mono ?_ fun _ _ h => h)
    exact fun _ _ h => ends_modify.2 h.1
  · next hplain =>
    refine ends_bind.2 ((describe_decides name id (by simpa using hplain) hchildren _ hsettled).mono ?_ fun _ _ h => h)
    exact fun _ _ h => ends_bind.2 (ends_pure.2 (ends_modify.2 h.1))

end Decides

end ContractBindings.Lowering
