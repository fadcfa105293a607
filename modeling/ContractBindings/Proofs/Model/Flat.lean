import ContractBindings.Proofs.Model.Assembly

/-!
# Models without containers inside containers

A target that cannot nest containers gets none to nest: the items of lists and the values of maps in its models are no
lists or maps, nor are the branches of unions if the target cannot hold those either (`ofGraph_flat`). What would be one
is kept as an opaque value where the container is made (`contained`), or makes the whole union an opaque value
(`unionBody`); all other ways to a descriptor put no descriptor inside another. All of this is one property of
computations (`Flattens`), kept by sequencing; `lower_flattens` says that lowering a schema has it.
-/

namespace ContractBindings

/-- The item or value, if the descriptor is of a list or map, is none of these. -/
def TypeDescriptor.Flat (t : TypeDescriptor) : Prop :=
  match t.kind with
  | .list inner | .map inner => inner.isContainer = false
  | _ => True

theorem TypeDescriptor.Flat.orNull {t : TypeDescriptor} (h : t.Flat) (nullable : Bool) : (t.orNull nullable).Flat := by
  cases t
  exact h

/-- The descriptors in a body are flat, and the branches of a union are no containers at all. -/
structure TypeBody.Flat (b : TypeBody) : Prop where
  descriptors : ∀ type ∈ b.descriptors, type.Flat
  branches : ∀ variants discriminator, b = .union variants discriminator → ∀ v ∈ variants, v.type.isContainer = false

/-- The descriptors of an operation are flat. -/
def OperationDef.Flat (o : OperationDef) : Prop := ∀ type ∈ o.descriptors, type.Flat

theorem TypeBody.Flat.struct {fields : List Field} {additional : Option Field} (hf : ∀ f ∈ fields, f.type.Flat)
    (ha : ∀ f ∈ additional, f.type.Flat) : TypeBody.Flat (.struct fields additional) where
  descriptors := by
    intro type htype
    simp only [TypeBody.descriptors, List.mem_append, List.mem_map, Option.mem_toList] at htype
    rcases htype with ⟨f, hm, rfl⟩ | ⟨f, hm, rfl⟩
    · exact hf f hm
    · exact ha f hm
  branches := nofun

theorem TypeBody.Flat.composite {parts : List Field} (h : ∀ f ∈ parts, f.type.Flat) :
    TypeBody.Flat (.composite parts) where
  descriptors := by
    intro type htype
    obtain ⟨f, hm, rfl⟩ := List.mem_map.1 htype
    exact h f hm
  branches := nofun

theorem TypeBody.Flat.enumeration (repr : EnumRepr) (variants : List EnumVariant) :
    TypeBody.Flat (.enumeration repr variants) where
  descriptors := nofun
  branches := nofun

theorem TypeBody.Flat.fallback (alternatives : List String) : TypeBody.Flat (.fallback alternatives) where
  descriptors := nofun
  branches := nofun

theorem TypeBody.Flat.alias {type : TypeDescriptor} (h : type.Flat) : TypeBody.Flat (.alias type) where
  descriptors := by simpa [TypeBody.descriptors] using h
  branches := nofun

/-- What is no container is flat. -/
theorem TypeDescriptor.flat_of_not_container {t : TypeDescriptor} (h : t.isContainer = false) : t.Flat := by
  unfold TypeDescriptor.isContainer at h
  unfold TypeDescriptor.Flat
  split at h <;> simp_all

theorem TypeBody.Flat.union {variants : List UnionVariant} {discriminator : Option String}
    (h : ∀ v ∈ variants, v.type.isContainer = false) : TypeBody.Flat (.union variants discriminator) where
  descriptors := by
    intro type htype
    obtain ⟨v, hv, rfl⟩ := List.mem_map.1 htype
    exact TypeDescriptor.flat_of_not_container (h v hv)
  branches := by
    rintro variants' discriminator' heq
    cases heq
    exact h

open Naming

namespace Lowering

/-- The types of the draft are flat. -/
def Draft.Flat (s : Draft) : Prop := ∀ t ∈ s.types, t.body.Flat

theorem Draft.flat_start (r : Registry) : (Draft.start r).Flat := nofun

/-- A computation that keeps the draft flat; its answers are flat, too. -/
def Flattens (flat : α → Prop) (x : Lower α) : Prop :=
  ∀ s : Draft, s.Flat → Ends x s (fun a s' => s'.Flat ∧ flat a) fun _ _ => True

namespace Flattens

variable {c : Context} {flat : α → Prop} {flatβ : β → Prop} {x : Lower α}

theorem pure {a : α} (h : flat a) : Flattens flat (Pure.pure a) := fun _ hs => ends_pure.2 ⟨hs, h⟩

theorem throw {e : Diagnostic} : Flattens flat (MonadExcept.throw e) := fun _ _ => ends_throw.2 trivial

theorem bind {f : α → Lower β} (hx : Flattens flat x) (hf : ∀ a, flat a → Flattens flatβ (f a)) :
    Flattens flatβ (x >>= f) :=
  fun s hs => ends_bind.2 ((hx s hs).mono (fun a s' h => hf a h.2 s' h.1) fun _ _ h => h)

theorem map {f : α → β} (hx : Flattens flat x) (hf : ∀ a, flat a → flatβ (f a)) : Flattens flatβ (f <$> x) :=
  fun s hs => ends_map.2 ((hx s hs).mono (fun a _ h => ⟨h.1, hf a h.2⟩) fun _ _ h => h)

theorem mono {flat' : α → Prop} (hx : Flattens flat x) (h : ∀ a, flat a → flat' a) : Flattens flat' x :=
  fun s hs => (hx s hs).mono (fun a _ ha => ⟨ha.1, h a ha.2⟩) fun _ _ h => h

theorem warn (code : DiagnosticCode) (message : String) : Flattens (fun _ => True) (Lowering.warn c code message) :=
  fun _ hs => ends_modify.2 ⟨hs, trivial⟩

theorem claim (base : String) : Flattens (fun _ => True) (Lowering.claim base) :=
  fun _ hs => ends_modifyGet.2 ⟨hs, trivial⟩

theorem insertType (place : Nat) {type : TypeDef} (h : type.body.Flat) :
    Flattens (fun _ => True) (Lowering.insertType place type) := by
  refine fun s hs => ends_modify.2 ⟨fun t ht => ?_, trivial⟩
  rcases List.mem_append.1 ht with ht | ht
  · exact hs t (List.mem_of_mem_take ht)
  · rcases List.mem_cons.1 ht with rfl | ht
    · exact h
    · exact hs t (List.mem_of_mem_drop ht)

/-- The use of a definition is no container. -/
theorem useDefinition (target : SchemaId) :
    Flattens (fun kind => ∀ nullable, (TypeDescriptor.mk kind nullable).isContainer = false)
      (Lowering.useDefinition c target) := by
  unfold Lowering.useDefinition
  split
  · split
    · exact throw
    · exact pure fun _ => rfl
  · exact throw

theorem unknownShape (id : SchemaId) (position : Position) :
    Flattens (fun type => type.isContainer = false) (Lowering.unknownShape c id position) := by
  unfold Lowering.unknownShape
  dsimp only
  split
  · exact throw
  · exact bind (warn _ _) fun _ _ => pure rfl

/-- What is put into a container is none, for a target that cannot nest them. -/
theorem contained {inner : TypeDescriptor} (id : SchemaId) (hnest : c.target.capability.nestedContainers = false) :
    Flattens (fun type => type.isContainer = false) (Lowering.contained c inner id) := by
  unfold Lowering.contained
  split
  · exact bind (warn _ _) fun _ _ => pure rfl
  · next h => exact pure (by simpa [hnest] using h)

/-- A union with a container among its branches is kept as an opaque value, for a target that cannot hold these. -/
theorem unionBody {name : String} {branches : List SchemaNode} {discriminator : Option Discriminator}
    {types : List TypeDescriptor} (hbranch : c.target.capability.containerBranches = false) :
    Flattens TypeBody.Flat (Lowering.unionBody c name branches discriminator types) := by
  obtain ⟨x, hx, hbody⟩ := unionBody_as c name branches discriminator types
  rw [hbody]
  cases hx with
  | downgraded _ => exact bind (warn _ _) fun _ _ => pure (.fallback _)
  | plain hholds => exact pure (.union fun v hv => hholds hbranch v.type (type_mem_of_unionVariants hv))
  | tagged hholds _ _ => exact pure (.union fun v hv => hholds hbranch v.type (type_mem_of_tagged hv))
  | dropped _ hholds =>
    refine bind (warn _ _) fun _ _ => pure (.union fun v hv => ?_)
    exact hholds hbranch v.type (type_mem_of_unionVariants hv)

theorem known? {node : SchemaNode} (position : Position) :
    Flattens (fun type => ∀ t ∈ type, TypeDescriptor.Flat t) (Lowering.known? c node position) := by
  intro s hs
  obtain ⟨x, hx, hrun⟩ := known?_as c node position s
  refine .of_run_eq hrun ?_
  cases hx with
  | refused _ _ _ =>
    refine map (f := some) (unknownShape _ _) (fun type h => ?_) s hs
    rintro _ ⟨⟩
    exact TypeDescriptor.flat_of_not_container h
  | definition _ =>
    refine bind (useDefinition _) (fun kind h => pure ?_) s hs
    rintro _ ⟨⟩
    exact TypeDescriptor.flat_of_not_container (h _)
  | named _ _ =>
    refine ends_pure.2 ⟨hs, ?_⟩
    rintro _ ⟨⟩
    exact trivial
  | new _ _ _ => exact ends_pure.2 ⟨hs, nofun⟩

theorem defineInline {id : SchemaId} {title doc : Option String} {hint : String} {body : String → Lower TypeBody}
    (hbody : ∀ name, Flattens TypeBody.Flat (body name)) :
    Flattens (fun kind => (TypeDescriptor.ofKind kind).Flat) (Lowering.defineInline id title doc hint body) := by
  refine bind (claim _) fun name _ s hs => ?_
  simp only [ends_bind, ends_modify, ends_get]
  refine ((hbody name) { s with inlineNames := s.inlineNames ++ [(id, name)] } hs).mono ?_ fun _ _ h => h
  rintro b s' ⟨hs', hb⟩
  exact ends_bind.1 (bind (insertType _ hb) (fun _ _ => pure trivial) s' hs')

end Flattens

/-! ## Lowering a schema -/

section Schemas

variable {c : Context}

/-- Lowering each node of a list puts no container into another, whatever the type is named after that it may become. -/
def Flattens.Nodes (c : Context) (nodes : List SchemaNode) : Prop :=
  ∀ n ∈ nodes, ∀ hint, Flattens TypeDescriptor.Flat (lower c hint .nested n)

section Shapes

variable (hint name : String)

theorem lowerOr_flattens {absent : Lower TypeDescriptor} (habsent : Flattens TypeDescriptor.Flat absent) :
    ∀ {n : Option SchemaNode}, Flattens.Nodes c n.toList → Flattens TypeDescriptor.Flat (lowerOr c hint absent n)
  | some node, hn => hn node (by simp) hint
  | none, _ => habsent

theorem lowerOption_flattens : ∀ {n : Option SchemaNode}, Flattens.Nodes c n.toList →
    Flattens (fun _ => True) (lowerOption c hint n)
  | some node, hn => (hn node (by simp) hint).map fun _ _ => trivial
  | none, _ => .pure trivial

theorem lowerFields_flattens (required : List String) : ∀ (r : Registry) {fields : List (String × SchemaNode)},
    Flattens.Nodes c (fields.map (·.2)) →
      Flattens (fun p => ∀ f ∈ p.1, f.type.Flat) (lowerFields c name required r fields)
  | _, [], _ => .pure (by simp)
  | _, (wire, node) :: rest, hn => by
    obtain ⟨hnode, hrest⟩ := List.forall_mem_cons.1 hn
    rw [lowerFields]
    refine (hnode _).bind fun type h => (lowerFields_flattens required _ hrest).bind fun p hp => .pure ?_
    exact List.forall_mem_cons.2 ⟨h, hp⟩

theorem lowerBranches_flattens : ∀ (number : Nat) {branches : List SchemaNode}, Flattens.Nodes c branches →
    Flattens (fun _ => True) (lowerBranches c name number branches)
  | _, [], _ => .pure trivial
  | _, node :: rest, hn => by
    obtain ⟨hnode, hrest⟩ := List.forall_mem_cons.1 hn
    rw [lowerBranches]
    exact (hnode _).bind fun _ _ => (lowerBranches_flattens _ hrest).bind fun _ _ => .pure trivial

theorem lowerParts_flattens : ∀ (number : Nat) (r : Registry) {parts : List SchemaNode}, Flattens.Nodes c parts →
    Flattens (fun fields => ∀ f ∈ fields, f.type.Flat) (lowerParts c name number r parts)
  | _, _, [], _ => .pure (by simp)
  | _, _, node :: rest, hn => by
    obtain ⟨hnode, hrest⟩ := List.forall_mem_cons.1 hn
    rw [lowerParts]
    refine (hnode _).bind fun type h => (lowerParts_flattens _ _ hrest).bind fun fields hfields => .pure ?_
    exact List.forall_mem_cons.2 ⟨h, hfields⟩

theorem Flattens.unknownShape_flat (id : SchemaId) (position : Position) :
    Flattens TypeDescriptor.Flat (Lowering.unknownShape c id position) :=
  (Flattens.unknownShape id position).mono fun _ h => TypeDescriptor.flat_of_not_container h

variable (hnest : c.target.capability.nestedContainers = false)

include hnest

theorem describe_flattens (id : SchemaId) (position : Position) {shape : Shape}
    (hchildren : Flattens.Nodes c shape.children) :
    Flattens TypeDescriptor.Flat (describe c id hint position shape) := by
  cases shape with
  | primitive kind format => exact Flattens.pure trivial
  | array items =>
    rw [describe]
    refine Flattens.bind (lowerOr_flattens _ (.unknownShape_flat _ _) hchildren) fun item _ => ?_
    exact Flattens.bind (Flattens.contained id hnest) fun item h => Flattens.pure h
  | object fields required additional =>
    have hadditional : Flattens.Nodes c additional.toList := fun m hm => hchildren m (List.mem_append_right _ hm)
    rw [describe]
    refine Flattens.bind (lowerOr_flattens _ (.unknownShape_flat _ _) hadditional) fun value _ => ?_
    exact Flattens.bind (Flattens.contained id hnest) fun value h => Flattens.pure h
  | enumeration values =>
    rw [describe]
    exact Flattens.bind (Flattens.warn _ _) fun _ _ => Flattens.pure trivial
  | reference target =>
    rw [describe]
    exact Flattens.map (Flattens.useDefinition target) fun kind h => TypeDescriptor.flat_of_not_container (h false)
  | union branches discriminator => exact .unknownShape_flat _ _
  | intersection parts => exact .unknownShape_flat _ _
  | unknown => exact .unknownShape_flat _ _

variable (hbranch : c.target.capability.containerBranches = false)

include hbranch

theorem compose_flattens (id : SchemaId) {shape : Shape} (hchildren : Flattens.Nodes c shape.children) :
    Flattens TypeBody.Flat (compose c id name shape) := by
  cases shape with
  | object fields required additional =>
    obtain ⟨hfields, hadditional⟩ := List.forall_mem_append.1 hchildren
    rw [compose]
    refine Flattens.bind (lowerFields_flattens name required _ hfields) fun p hp => ?_
    refine Flattens.bind (lowerOption_flattens _ hadditional) fun value _ => ?_
    cases value with
    | some value =>
      refine Flattens.bind (Flattens.contained id hnest) fun value h => Flattens.pure (.struct hp ?_)
      rintro _ ⟨⟩
      exact h
    | none => exact Flattens.pure (.struct hp (by simp))
  | enumeration values => exact Flattens.pure (.enumeration _ _)
  | union branches discriminator =>
    rw [compose]
    exact Flattens.bind (lowerBranches_flattens name 1 hchildren) fun types _ => Flattens.unionBody hbranch
  | intersection parts =>
    rw [compose]
    exact Flattens.bind (lowerParts_flattens name 1 _ hchildren) fun fields h => Flattens.pure (.composite h)
  | primitive kind format => exact Flattens.pure (.alias trivial)
  | array items => exact Flattens.pure (.alias trivial)
  | reference target => exact Flattens.pure (.alias trivial)
  | unknown => exact Flattens.pure (.alias trivial)

end Shapes

variable (hnest : c.target.capability.nestedContainers = false)
  (hbranch : c.target.capability.containerBranches = false)

include hnest hbranch

/-- Lowering a node puts no container into another. -/
theorem lower_flattens (n : SchemaNode) (hint : String) (position : Position) :
    Flattens TypeDescriptor.Flat (lower c hint position n) := by
  induction n using SchemaNode.inductionOnChildren generalizing hint position with
  | step n ih =>
    obtain ⟨id, title, description, nullable, shape⟩ := n
    have hchildren : Flattens.Nodes c shape.children := fun m hm hint => ih m hm hint .nested
    rw [lower]
    refine Flattens.bind (Flattens.known? position) fun type htype => ?_
    cases type with
    | some type => exact Flattens.pure (htype type rfl)
    | none =>
      dsimp only
      split
      · refine Flattens.bind (Flattens.map (Flattens.defineInline fun name => ?_) fun _ h => h) fun type h => ?_
        · exact compose_flattens name hnest hbranch id hchildren
        · exact Flattens.pure (h.orNull nullable)
      · refine Flattens.bind (describe_flattens hint hnest id position hchildren) fun type h => ?_
        exact Flattens.pure (h.orNull nullable)

theorem Flattens.nodes (nodes : List SchemaNode) : Flattens.Nodes c nodes :=
  fun n _ hint => lower_flattens hnest hbranch n hint .nested

/-! ## Definitions and operations -/

theorem lowerDefinition_flattens (id : SchemaId) (name : String) (node : SchemaNode) :
    Flattens (fun _ => True) (lowerDefinition c id name node) := by
  unfold lowerDefinition
  split
  · exact Flattens.bind (compose_flattens name hnest hbranch id (.nodes hnest hbranch _)) fun body h => .insertType 0 h
  · refine Flattens.bind (describe_flattens name hnest id .nested (.nodes hnest hbranch _)) fun type h => ?_
    have hbody : TypeBody.Flat (.alias (type.orNull node.nullable)) := .alias (h.orNull node.nullable)
    exact Flattens.bind (Flattens.pure hbody) fun body h => .insertType 0 h

theorem lowerParams_flattens (base : String) : ∀ (r : Registry) (params : List Parameter),
    Flattens (fun p => ∀ param ∈ p.1, param.type.Flat) (lowerParams c base r params)
  | _, [] => Flattens.pure (by simp)
  | r, p :: rest => by
    rw [lowerParams]
    refine Flattens.bind (lower_flattens hnest hbranch p.schema _ .payload) fun type htype => ?_
    refine Flattens.bind (lowerParams_flattens base _ rest) fun p hrest => Flattens.pure ?_
    exact List.forall_mem_cons.2 ⟨htype, hrest⟩

theorem lowerBody_flattens (base : String) (r : Registry) (body : Option RequestBody) :
    Flattens (fun b => ∀ body ∈ b, body.type.Flat) (lowerBody c base r body) := by
  cases body with
  | none => exact Flattens.pure (by simp)
  | some b =>
    refine Flattens.bind (lower_flattens hnest hbranch b.schema _ .payload) fun type h => Flattens.pure ?_
    rintro _ ⟨⟩
    exact h

theorem responseType_flattens (base status : String) (response : Response) :
    Flattens (fun type => ∀ t ∈ type, TypeDescriptor.Flat t) (responseType c base status response) := by
  unfold responseType
  split
  · next node _ =>
    refine Flattens.map (lower_flattens hnest hbranch node _ .payload) fun type h => ?_
    rintro _ ⟨⟩
    exact h
  · refine Flattens.pure ?_
    rintro _ ⟨⟩
    exact trivial
  · exact Flattens.pure (by simp)

theorem lowerResponses_flattens (base : String) : ∀ responses : List (String × Response),
    Flattens (fun rs => ∀ r ∈ rs, r.type.Flat) (lowerResponses c base responses)
  | [] => Flattens.pure (by simp)
  | (status, response) :: rest => by
    rw [lowerResponses_cons]
    refine Flattens.bind (responseType_flattens hnest hbranch base status response) fun type htype => ?_
    refine Flattens.bind (lowerResponses_flattens base rest) fun others hothers => Flattens.pure fun r hr => ?_
    rcases List.mem_append.1 hr with hr | hr
    · obtain ⟨t, ht, rfl⟩ := Option.map_eq_some_iff.1 (Option.mem_toList.1 hr)
      exact htype t ht
    · exact hothers r hr

theorem lowerOperation_flattens (o : Operation) : Flattens OperationDef.Flat (lowerOperation c o) := by
  unfold lowerOperation
  refine Flattens.bind (.claim _) fun request _ => Flattens.bind (.claim _) fun response _ => ?_
  refine Flattens.bind (.claim _) fun service _ => ?_
  refine Flattens.bind (lowerParams_flattens hnest hbranch _ _ _) fun p hparams => ?_
  refine Flattens.bind (lowerBody_flattens hnest hbranch _ _ _) fun body hbody => ?_
  refine Flattens.bind (lowerResponses_flattens hnest hbranch _ _) fun responses hresponses => Flattens.pure ?_
  intro type htype
  simp only [OperationDef.descriptors, List.mem_append, List.mem_map, Option.mem_toList] at htype
  rcases htype with (⟨q, hq, rfl⟩ | ⟨b, hb, rfl⟩) | ⟨r, hr, rfl⟩
  · exact hparams q hq
  · exact hbody b hb
  · exact hresponses r hr

end Schemas

/-- The types and operations of a model are flat, for a target that can neither nest containers nor hold them as
branches. -/
theorem ofGraph_flat {target : Target} (hnest : target.capability.nestedContainers = false)
    (hbranch : target.capability.containerBranches = false) (g : SchemaGraph) (operations : List Operation)
    (config : Config) :
    (∀ t ∈ (Model.ofGraph g operations target config).types, t.body.Flat) ∧
      ∀ o ∈ (Model.ofGraph g operations target config).operations, o.Flat := by
  have hkept : ∀ t ∈ (assembled g target config).model.types, t.body.Flat := by
    intro t ht
    rw [assembled_types] at ht
    obtain ⟨p, hp, ht⟩ := List.mem_flatMap.1 ht
    obtain ⟨-, d, -, failed, r, node, name, -, -, -, hl⟩ := kept_traced hp
    exact ((lowerDefinition_flattens hnest hbranch d.id name node (Draft.start r) (Draft.flat_start r)).answer
      hl.run_eq).1 t ht
  have hnone : (assembled g target config).model.operations = [] := (foldl_commit (kept g target config) _).2.2.1
  rw [ofGraph_eq]
  refine lowerOperations_run
    (I := fun _ a => (∀ t ∈ a.model.types, t.body.Flat) ∧ ∀ o ∈ a.model.operations, o.Flat) ?_ operations []
    (assembled g target config) ⟨hkept, by simp [hnone]⟩
  rintro before o a a' ⟨htypes, hoperations⟩ (@⟨operation, draft, hrun⟩ | ⟨-⟩)
  · obtain ⟨hdraft, hflat⟩ :=
      (lowerOperation_flattens hnest hbranch o (Draft.start a.registry) (Draft.flat_start _)).answer hrun
    constructor
    · intro t ht
      rcases List.mem_append.1 ht with ht | ht
      · exact htypes t ht
      · exact hdraft t ht
    · intro o' ho'
      rcases List.mem_append.1 ho' with ho' | ho'
      · exact hoperations o' ho'
      · rwa [List.mem_singleton.1 ho']
  · exact ⟨htypes, hoperations⟩

end Lowering

end ContractBindings
