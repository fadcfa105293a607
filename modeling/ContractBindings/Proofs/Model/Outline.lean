import ContractBindings.Proofs.Model.Assembly
import ContractBindings.Proofs.Operation.Building

/-!
# What does not depend on the target

Where schemas without a shape are treated alike, lowering for two targets makes types of the same schemas and the same
errors. Names, what is opaque, and warnings may differ, and lowering branches on names that are known; but it branches
only on whether there is one, and never fails for what the target lacks. Two runs from drafts of one outline end with
drafts of one outline or with one error: that is one relation of computations (`Together`), kept by sequencing;
`lower_together` says that lowering a schema in two contexts that agree (`Context.Agrees`) has it. An operation ends as the
lowering of its schemas in order does, but for the answer (`lowerOperation_lowerAll`). So every stage of making a model keeps
an outline of its own, up to the drafts that go into the model (`assembled_outline`) and the operations
(`lowerOperations_outline`).
-/

namespace ContractBindings

open Naming

/-- What identifies an operation and describes it. -/
def OperationDef.header (o : OperationDef) : String × Method × String × Option String × Option String × Bool :=
  (o.id, o.method, o.path, o.summary, o.description, o.deprecated)

namespace Lowering

/-- What of a draft does not depend on the target: the schemas of the types with their descriptions, the nodes that have
names, and the errors. -/
def Draft.outline (s : Draft) : List (SchemaId × Option String) × List SchemaId × List Diagnostic :=
  (s.types.map fun t => (t.source, t.doc), s.inlineNames.map (·.1), s.warnings.filter Diagnostic.isError)

/-- Two contexts that differ in the target, in names and in what else is said of them. -/
structure Context.Agrees (c c' : Context) : Prop where
  graph : c.graph = c'.graph
  unknownPayloads : c.config.unknownPayloads = c'.config.unknownPayloads
  unknownFields : c.config.unknownFields = c'.config.unknownFields
  names : c.names.map (·.1) = c'.names.map (·.1)
  inlineNames : c.inlineNames.map (·.1) = c'.inlineNames.map (·.1)
  failed : c.failed = c'.failed
  unit : c.unit = c'.unit

theorem Context.Agrees.refl (c : Context) : c.Agrees c := ⟨rfl, rfl, rfl, rfl, rfl, rfl, rfl⟩

/-! ## Runs side by side -/

/-- Two endings that match: answers that are related, with drafts of one outline, or the same failure. -/
inductive Matches (R : α → β → Prop) : Except Diagnostic α × Draft → Except Diagnostic β × Draft → Prop
  | answers {a : α} {b : β} {s s' : Draft} : R a b → s.outline = s'.outline → Matches R (.ok a, s) (.ok b, s')
  | failures {e : Diagnostic} {s s' : Draft} : Matches R (.error e, s) (.error e, s')

/-- From drafts of one outline, two computations end in a matching way. -/
def Together (R : α → β → Prop) (x : Lower α) (y : Lower β) : Prop :=
  ∀ s s' : Draft, s.outline = s'.outline → Matches R (x.run.run s) (y.run.run s')

/-- A computation that does not fail and leaves the outline as it is. -/
def Silent (x : Lower α) : Prop := ∀ s : Draft, Ends x s (fun _ s' => s'.outline = s.outline) fun _ _ => False

namespace Silent

theorem pure (a : α) : Silent (Pure.pure a : Lower α) := fun _ => ends_pure.2 rfl

theorem bind {x : Lower α} {f : α → Lower β} (hx : Silent x) (hf : ∀ a, Silent (f a)) : Silent (x >>= f) :=
  fun s => ends_bind.2 ((hx s).mono (fun a s' h => (hf a s').mono (fun _ _ h' => h'.trans h) fun _ _ h => h)
    fun _ _ h => h)

theorem warn {c : Context} {code : DiagnosticCode} {message : String} : Silent (Lowering.warn c code message) := by
  refine fun s => ends_modify.2 ?_
  simp [Draft.outline, Diagnostic.warning, Diagnostic.isError]

theorem claim {base : String} : Silent (Lowering.claim base) := fun _ => ends_modifyGet.2 rfl

/-- What a target cannot nest is no failure. -/
theorem contained {c : Context} {inner : TypeDescriptor} {id : SchemaId} :
    Silent (Lowering.contained c inner id) := by
  unfold Lowering.contained
  split
  · exact bind warn fun _ => pure _
  · exact pure inner

/-- A union that a target cannot hold, or that is configured to be opaque, is no failure. -/
theorem unionBody {c : Context} {name : String} {branches : List SchemaNode} {discriminator : Option Discriminator}
    {types : List TypeDescriptor} : Silent (Lowering.unionBody c name branches discriminator types) := by
  obtain ⟨x, hx, hbody⟩ := unionBody_as c name branches discriminator types
  rw [hbody]
  cases hx with
  | downgraded _ => exact bind warn fun _ => pure _
  | plain _ => exact pure _
  | tagged _ _ _ => exact pure _
  | dropped _ _ => exact bind warn fun _ => pure _

end Silent

/-- Two computations end in a matching way, whatever they answer. -/
abbrev Alongside (x : Lower α) (y : Lower β) : Prop := Together (fun _ _ => True) x y

theorem Together.pure {R : α → β → Prop} {a : α} {b : β} (h : R a b) : Together R (Pure.pure a) (Pure.pure b) :=
  fun _ _ hs => .answers h hs

theorem Together.throw {R : α → β → Prop} (e : Diagnostic) :
    Together R (MonadExcept.throw e) (MonadExcept.throw e) := fun _ _ _ => .failures

theorem Together.bind {R : α → β → Prop} {S : γ → δ → Prop} {x : Lower α} {y : Lower β} {f : α → Lower γ}
    {g : β → Lower δ} (hx : Together R x y) (hf : ∀ a b, R a b → Together S (f a) (g b)) :
    Together S (x >>= f) (y >>= g) := by
  intro s s' hs
  have h := hx s s' hs
  rcases hrun : x.run.run s with ⟨answer, t⟩
  rcases hrun' : y.run.run s' with ⟨answer', t'⟩
  rw [hrun, hrun'] at h
  cases h with
  | answers hab ht =>
    rw [run_bind_of_ok hrun, run_bind_of_ok hrun']
    exact hf _ _ hab t t' ht
  | failures =>
    rw [run_bind_of_error hrun, run_bind_of_error hrun']
    exact .failures

theorem Together.get : Together (fun s s' : Draft => s.outline = s'.outline) get get := fun _ _ hs => .answers hs hs

namespace Alongside

variable {x : Lower α} {y : Lower β} {f : α → Lower γ} {g : β → Lower δ}

theorem pure {a : α} {b : β} : Alongside (Pure.pure a) (Pure.pure b) := Together.pure trivial

theorem bind (hx : Alongside x y) (hf : ∀ a b, Alongside (f a) (g b)) : Alongside (x >>= f) (y >>= g) :=
  Together.bind hx fun a b _ => hf a b

theorem map {f : α → γ} {g : β → δ} (hx : Alongside x y) : Alongside (f <$> x) (g <$> y) := by
  rw [map_eq_pure_bind, map_eq_pure_bind]
  exact bind hx fun _ _ => pure

theorem of_silent (hx : Silent x) (hy : Silent y) : Alongside x y := by
  intro s s' hs
  have h := hx s
  have h' := hy s'
  unfold Ends at h h'
  rcases hrun : x.run.run s with ⟨_ | a, t⟩
  · simp only [hrun] at h
  · rcases hrun' : y.run.run s' with ⟨_ | b, t'⟩
    · simp only [hrun'] at h'
    · simp only [hrun] at h
      simp only [hrun'] at h'
      exact .answers trivial (h.trans (hs.trans h'.symm))

theorem symm (h : Alongside x y) : Alongside y x := by
  intro s s' hs
  have hm := h s' s hs.symm
  generalize x.run.run s' = ending at hm
  generalize y.run.run s = ending' at hm
  cases hm with
  | answers _ houtline => exact .answers trivial houtline.symm
  | failures => exact .failures

theorem trans {z : Lower γ} (h : Alongside x y) (h' : Alongside y z) : Alongside x z := by
  intro s s' hs
  have hm := h s s' hs
  have hm' := h' s' s' rfl
  generalize x.run.run s = ending at hm
  generalize y.run.run s' = ending' at hm hm'
  generalize z.run.run s' = ending'' at hm'
  cases hm with
  | answers _ houtline =>
    cases hm' with
    | answers _ houtline' => exact .answers trivial (houtline.trans houtline')
  | failures =>
    cases hm' with
    | failures => exact .failures

/-- What follows on the left is silent. -/
theorem silent_left (hx : Alongside x y) (hf : ∀ a, Silent (f a)) : Alongside (x >>= f) y := by
  have h : Alongside (x >>= f) (y >>= Pure.pure) := bind hx fun a b => of_silent (hf a) (.pure b)
  rwa [bind_pure] at h

/-- What follows on the right is silent. -/
theorem silent_right (hx : Alongside x y) (hg : ∀ b, Silent (g b)) : Alongside x (y >>= g) :=
  (hx.symm.silent_left hg).symm

/-- What comes first on the left is silent. -/
theorem after_silent (hx : Silent x) (hf : ∀ a, Alongside (f a) y) : Alongside (x >>= f) y := by
  have h : Alongside (x >>= f) (Pure.pure () >>= fun _ => y) := bind (of_silent hx (.pure ())) fun a _ => hf a
  rwa [pure_bind] at h

/-- What follows is silent on both sides. -/
theorem silent_bind (hx : Alongside x y) (hf : ∀ a, Silent (f a)) (hg : ∀ b, Silent (g b)) :
    Alongside (x >>= f) (y >>= g) :=
  bind hx fun a b => of_silent (hf a) (hg b)

theorem modify {f g : Draft → Draft} (h : ∀ s s' : Draft, s.outline = s'.outline → (f s).outline = (g s').outline) :
    Alongside (modifyThe Draft f) (modifyThe Draft g) :=
  fun s s' hs => .answers trivial (h s s' hs)

/-- Types of one origin are put in at one place. -/
theorem insertType {place place' : Nat} {t t' : TypeDef} (hplace : place = place') (hsource : t.source = t'.source)
    (hdoc : t.doc = t'.doc) : Alongside (Lowering.insertType place t) (Lowering.insertType place' t') := by
  refine modify fun s s' hs => ?_
  obtain ⟨htypes, hrest⟩ := Prod.mk.inj hs
  simp only [Draft.outline, Prod.mk.injEq, List.map_append, List.map_take, List.map_cons, List.map_drop] at hrest ⊢
  exact ⟨by rw [htypes, hplace, hsource, hdoc], hrest⟩

variable {c c' : Context}

/-- A definition is used in both contexts or in neither. -/
theorem useDefinition (h : c.Agrees c') (target : SchemaId) :
    Alongside (Lowering.useDefinition c target) (Lowering.useDefinition c' target) := by
  have hsome : (c.names.lookup target).isSome = (c'.names.lookup target).isSome := by
    rw [Bool.eq_iff_iff, lookup_isSome_iff, lookup_isSome_iff, h.names]
  unfold Lowering.useDefinition
  rw [← h.failed, ← h.unit]
  cases hl : c.names.lookup target with
  | none =>
    rw [hl, eq_comm, Option.isSome_none, Option.isSome_eq_false_iff, Option.isNone_iff_eq_none] at hsome
    rw [hsome]
    exact Together.throw _
  | some name =>
    rw [hl, Option.isSome_some, eq_comm, Option.isSome_iff_exists] at hsome
    obtain ⟨name', hl'⟩ := hsome
    rw [hl']
    dsimp only
    split
    · exact Together.throw _
    · exact pure

/-- A schema without a shape is refused in both contexts or in neither. -/
theorem unknownShape (h : c.Agrees c') (id : SchemaId) (position : Position) :
    Alongside (Lowering.unknownShape c id position) (Lowering.unknownShape c' id position) := by
  unfold Lowering.unknownShape
  rw [← h.unknownPayloads, ← h.unknownFields, ← h.unit]
  cases position with
  | payload =>
    dsimp only
    split
    · exact Together.throw _
    · exact of_silent (.bind .warn fun _ => .pure _) (.bind .warn fun _ => .pure _)
  | nested =>
    dsimp only
    split
    · exact Together.throw _
    · exact of_silent (.bind .warn fun _ => .pure _) (.bind .warn fun _ => .pure _)

/-- A node becomes a type in both contexts. -/
theorem defineInline {id : SchemaId} {title doc : Option String} {hint hint' : String}
    {body body' : String → Lower TypeBody}
    (hbody : ∀ name name', Alongside (body name) (body' name')) :
    Alongside (Lowering.defineInline id title doc hint body) (Lowering.defineInline id title doc hint' body') := by
  refine bind (of_silent .claim .claim) fun name name' => bind (modify fun s s' hs => ?_) fun _ _ => ?_
  · obtain ⟨htypes, hrest⟩ := Prod.mk.inj hs
    obtain ⟨hnames, hwarnings⟩ := Prod.mk.inj hrest
    simp [Draft.outline, htypes, hnames, hwarnings]
  · refine Together.bind Together.get fun s s' hs => ?_
    have hlength : s.types.length = s'.types.length := by
      simpa [Draft.outline] using congrArg (·.1.length) hs
    exact bind (hbody name name') fun _ _ => bind (insertType hlength rfl rfl) fun _ _ => pure

end Alongside

/-- A node is known in both contexts or in neither. -/
theorem Together.known? {c c' : Context} (h : c.Agrees c') (node : SchemaNode) (position : Position) :
    Together (fun type type' => type.isSome = type'.isSome) (Lowering.known? c node position)
      (Lowering.known? c' node position) := by
  unfold Lowering.known?
  rw [← h.graph, ← h.unknownPayloads]
  dsimp only
  split
  · rw [map_eq_pure_bind, map_eq_pure_bind]
    exact bind (Alongside.unknownShape h _ position) fun _ _ _ => pure rfl
  · split
    · exact bind (Alongside.useDefinition h node.id) fun _ _ _ => pure rfl
    · refine bind get fun s s' hs => ?_
      have hkeys : s.inlineNames.map (·.1) = s'.inlineNames.map (·.1) := congrArg (·.2.1) hs
      have hsome : (c.inlineNames.lookup node.id <|> s.inlineNames.lookup node.id).isSome =
          (c'.inlineNames.lookup node.id <|> s'.inlineNames.lookup node.id).isSome := by
        simp only [Option.orElse_eq_orElse, Option.orElse_eq_or, Option.isSome_or]
        rw [Bool.eq_iff_iff, Bool.or_eq_true, Bool.or_eq_true, lookup_isSome_iff, lookup_isSome_iff, lookup_isSome_iff,
          lookup_isSome_iff, h.inlineNames, hkeys]
      generalize (c.inlineNames.lookup node.id <|> s.inlineNames.lookup node.id) = name at hsome ⊢
      generalize (c'.inlineNames.lookup node.id <|> s'.inlineNames.lookup node.id) = name' at hsome ⊢
      cases name <;> cases name' <;> first | exact pure rfl | cases hsome

/-! ## Lowering a schema -/

section Schemas

variable {c c' : Context}

/-- Lowering each node of a list in two contexts ends in a matching way, whatever the types are named after that it may
become. -/
def Alongside.Nodes (c c' : Context) (nodes : List SchemaNode) : Prop :=
  ∀ n ∈ nodes, ∀ hint hint', Alongside (lower c hint .nested n) (lower c' hint' .nested n)

section Shapes

variable (hint hint' name name' : String)

theorem lowerOr_together {absent absent' : Lower TypeDescriptor} (habsent : Alongside absent absent') :
    ∀ {n : Option SchemaNode}, Alongside.Nodes c c' n.toList →
      Alongside (lowerOr c hint absent n) (lowerOr c' hint' absent' n)
  | some node, hn => hn node (by simp) hint hint'
  | none, _ => habsent

theorem lowerOption_together : ∀ {n : Option SchemaNode}, Alongside.Nodes c c' n.toList →
    Alongside (lowerOption c hint n) (lowerOption c' hint' n)
  | some node, hn => Alongside.map (hn node (by simp) hint hint')
  | none, _ => Alongside.pure

theorem lowerFields_together (required : List String) : ∀ (r r' : Naming.Registry) {fields : List (String × SchemaNode)},
    Alongside.Nodes c c' (fields.map (·.2)) →
      Alongside (lowerFields c name required r fields) (lowerFields c' name' required r' fields)
  | _, _, [], _ => Alongside.pure
  | _, _, (wire, node) :: rest, hn => by
    obtain ⟨hnode, hrest⟩ := List.forall_mem_cons.1 hn
    rw [lowerFields, lowerFields]
    refine Alongside.bind (hnode _ _) fun _ _ => ?_
    exact Alongside.bind (lowerFields_together required _ _ hrest) fun _ _ => Alongside.pure

theorem lowerBranches_together : ∀ (number : Nat) {branches : List SchemaNode}, Alongside.Nodes c c' branches →
    Alongside (lowerBranches c name number branches) (lowerBranches c' name' number branches)
  | _, [], _ => Alongside.pure
  | _, node :: rest, hn => by
    obtain ⟨hnode, hrest⟩ := List.forall_mem_cons.1 hn
    rw [lowerBranches, lowerBranches]
    exact Alongside.bind (hnode _ _) fun _ _ => Alongside.bind (lowerBranches_together _ hrest) fun _ _ => Alongside.pure

theorem lowerParts_together : ∀ (number : Nat) (r r' : Naming.Registry) {parts : List SchemaNode},
    Alongside.Nodes c c' parts → Alongside (lowerParts c name number r parts) (lowerParts c' name' number r' parts)
  | _, _, _, [], _ => Alongside.pure
  | _, _, _, node :: rest, hn => by
    obtain ⟨hnode, hrest⟩ := List.forall_mem_cons.1 hn
    rw [lowerParts, lowerParts]
    refine Alongside.bind (hnode _ _) fun _ _ => ?_
    exact Alongside.bind (lowerParts_together _ _ _ hrest) fun _ _ => Alongside.pure

theorem describe_together (h : c.Agrees c') (id : SchemaId) (position : Position) {shape : Shape}
    (hchildren : Alongside.Nodes c c' shape.children) :
    Alongside (describe c id hint position shape) (describe c' id hint' position shape) := by
  cases shape with
  | primitive kind format => exact Alongside.pure
  | array items =>
    rw [describe, describe]
    exact Alongside.silent_bind (lowerOr_together _ _ (Alongside.unknownShape h _ _) hchildren)
      (fun _ => .bind .contained fun _ => .pure _) fun _ => .bind .contained fun _ => .pure _
  | object fields required additional =>
    have hadditional : Alongside.Nodes c c' additional.toList := fun m hm => hchildren m (List.mem_append_right _ hm)
    rw [describe, describe]
    exact Alongside.silent_bind (lowerOr_together _ _ (Alongside.unknownShape h _ _) hadditional)
      (fun _ => .bind .contained fun _ => .pure _) fun _ => .bind .contained fun _ => .pure _
  | enumeration values =>
    rw [describe, describe]
    exact Alongside.of_silent (.bind .warn fun _ => .pure _) (.bind .warn fun _ => .pure _)
  | reference target =>
    rw [describe, describe]
    exact Alongside.map (Alongside.useDefinition h target)
  | union branches discriminator => exact Alongside.unknownShape h _ _
  | intersection parts => exact Alongside.unknownShape h _ _
  | unknown => exact Alongside.unknownShape h _ _

theorem compose_together (id : SchemaId) {shape : Shape} (hchildren : Alongside.Nodes c c' shape.children) :
    Alongside (compose c id name shape) (compose c' id name' shape) := by
  cases shape with
  | object fields required additional =>
    obtain ⟨hfields, hadditional⟩ := List.forall_mem_append.1 hchildren
    rw [compose, compose]
    refine Alongside.bind (lowerFields_together name name' required _ _ hfields) fun p p' => ?_
    refine Alongside.silent_bind (lowerOption_together _ _ hadditional) (fun value => ?_) fun value => ?_
    · cases value with
      | some value => exact .bind .contained fun _ => .pure _
      | none => exact .pure _
    · cases value with
      | some value => exact .bind .contained fun _ => .pure _
      | none => exact .pure _
  | enumeration values => exact Alongside.pure
  | union branches discriminator =>
    rw [compose, compose]
    refine Alongside.silent_bind (lowerBranches_together name name' 1 hchildren) (fun _ => ?_) fun _ => ?_
    · exact .unionBody
    · exact .unionBody
  | intersection parts =>
    rw [compose, compose]
    exact Alongside.bind (lowerParts_together name name' 1 _ _ hchildren) fun _ _ => Alongside.pure
  | primitive kind format => exact Alongside.pure
  | array items => exact Alongside.pure
  | reference target => exact Alongside.pure
  | unknown => exact Alongside.pure

end Shapes

variable (h : c.Agrees c')

include h

/-- Lowering a node in two contexts that agree ends in a matching way. -/
theorem lower_together (n : SchemaNode) (hint hint' : String) (position : Position) :
    Alongside (lower c hint position n) (lower c' hint' position n) := by
  induction n using SchemaNode.inductionOnChildren generalizing hint hint' position with
  | step n ih =>
    obtain ⟨id, title, description, nullable, shape⟩ := n
    have hchildren : Alongside.Nodes c c' shape.children := fun m hm hint hint' => ih m hm hint hint' .nested
    rw [lower, lower]
    refine Together.bind (Together.known? h _ position) fun type type' hsome => ?_
    cases type with
    | some type =>
      obtain ⟨type', rfl⟩ := Option.isSome_iff_exists.1 hsome.symm
      exact Alongside.pure
    | none =>
      obtain rfl := Option.isNone_iff_eq_none.1 (Option.isSome_eq_false_iff.1 hsome.symm)
      dsimp only
      split
      · refine Alongside.bind (Alongside.map (Alongside.defineInline fun name name' => ?_)) fun _ _ => Alongside.pure
        exact compose_together name name' id hchildren
      · exact Alongside.bind (describe_together hint hint' h id position hchildren) fun _ _ => Alongside.pure

theorem Alongside.nodes (nodes : List SchemaNode) : Alongside.Nodes c c' nodes :=
  fun n _ hint hint' => lower_together h n hint hint' .nested

end Schemas

/-! ## Definitions and operations -/

section Operations

variable (c : Context)

/-- Lowers the schemas of an operation in order, for what becomes of them alone. -/
def lowerAll : List SchemaNode → Lower Unit
  | [] => pure ()
  | n :: rest => do
    let _ ← lower c "" .payload n
    lowerAll rest

theorem lowerAll_append (nodes' : List SchemaNode) : ∀ nodes : List SchemaNode,
    lowerAll c (nodes ++ nodes') = (do lowerAll c nodes; lowerAll c nodes')
  | [] => (pure_bind () fun _ => lowerAll c nodes').symm
  | n :: rest => by
    rw [List.cons_append, lowerAll, lowerAll, lowerAll_append nodes' rest, bind_assoc]

theorem lower_lowerAll (hint : String) (n : SchemaNode) : Alongside (lower c hint .payload n) (lowerAll c [n]) :=
  (lower_together (.refl c) n hint "" .payload).silent_right fun _ => .pure _

theorem lowerParams_lowerAll (base : String) : ∀ (r : Registry) (params : List Parameter),
    Alongside (lowerParams c base r params) (lowerAll c (params.map (·.schema)))
  | _, [] => Alongside.pure
  | r, p :: rest => by
    rw [lowerParams, List.map_cons, lowerAll]
    refine Alongside.bind (lower_together (.refl c) p.schema _ "" .payload) fun _ _ => ?_
    exact (lowerParams_lowerAll base _ rest).silent_left fun _ => .pure _

theorem lowerBody_lowerAll (base : String) (r : Registry) (body : Option RequestBody) :
    Alongside (lowerBody c base r body) (lowerAll c (body.toList.map (·.schema))) := by
  cases body with
  | none => exact Alongside.pure
  | some b => exact (lower_lowerAll c _ b.schema).silent_left fun _ => .pure _

/-- A response without a body is left out or not, and neither is a failure. -/
theorem responseType_lowerAll (base status : String) (response : Response) :
    Alongside (responseType c base status response) (lowerAll c response.schema.toList) := by
  unfold responseType
  cases response.schema with
  | none => cases c.config.emptyResponses <;> exact Alongside.pure
  | some node =>
    dsimp only
    rw [map_eq_pure_bind]
    exact (lower_lowerAll c _ node).silent_left fun _ => .pure _

theorem lowerResponses_lowerAll (base : String) : ∀ responses : List (String × Response),
    Alongside (lowerResponses c base responses) (lowerAll c (responses.flatMap (·.2.schema.toList)))
  | [] => Alongside.pure
  | (status, response) :: rest => by
    rw [lowerResponses_cons, List.flatMap_cons, lowerAll_append]
    refine (responseType_lowerAll c base status response).bind fun _ _ => ?_
    exact (lowerResponses_lowerAll base rest).silent_left fun _ => .pure _

/-- Lowering an operation ends like lowering its schemas in order. -/
theorem lowerOperation_lowerAll (o : Operation) : Alongside (lowerOperation c o) (lowerAll c o.schemas) := by
  rw [Operation.schemas, List.filterMap_eq_flatMap_toList, List.append_assoc, lowerAll_append, lowerAll_append]
  refine .after_silent .claim fun request => .after_silent .claim fun response => .after_silent .claim fun service => ?_
  refine (lowerParams_lowerAll c _ _ _).bind fun p _ => (lowerBody_lowerAll c _ _ _).bind fun body _ => ?_
  exact (lowerResponses_lowerAll c _ _).silent_left fun responses => .pure _

end Operations

section Agreeing

variable {c c' : Context} (h : c.Agrees c')

include h

theorem lowerDefinition_together (id : SchemaId) (name name' : String) (node : SchemaNode) :
    Alongside (lowerDefinition c id name node) (lowerDefinition c' id name' node) := by
  unfold lowerDefinition
  split
  · exact Alongside.bind (compose_together name name' id (.nodes h _)) fun _ _ =>
      Alongside.insertType rfl rfl rfl
  · refine Alongside.bind (describe_together name name' h id .nested (.nodes h _)) fun _ _ => ?_
    exact Alongside.bind Alongside.pure fun _ _ => Alongside.insertType rfl rfl rfl

/-- Lowering the schemas of an operation in order ends in a matching way. -/
theorem lowerAll_together : ∀ nodes : List SchemaNode, Alongside (lowerAll c nodes) (lowerAll c' nodes)
  | [] => Alongside.pure
  | n :: rest => Alongside.bind (lower_together h n _ _ .payload) fun _ _ => lowerAll_together rest

theorem lowerOperation_together (o : Operation) : Alongside (lowerOperation c o) (lowerOperation c' o) :=
  ((lowerOperation_lowerAll c o).trans (lowerAll_together h o.schemas)).trans (lowerOperation_lowerAll c' o).symm

end Agreeing

/-- What identifies an operation and describes it is that of the operation lowered. -/
theorem lowerOperation_header (c : Context) (o : Operation) (s : Draft) :
    Ends (lowerOperation c o) s
      (fun operation _ => operation.header = (o.id, o.method, o.path, o.summary, o.description, o.deprecated))
      fun _ _ => True := by
  refine .after fun request _ => .after fun response _ => .after fun service _ => ?_
  refine .after fun (params, r) _ => .after fun body _ => .after fun responses _ => ?_
  exact ends_pure.2 rfl

/-! ## The stages -/

/-- What of naming the definitions does not depend on the target: which have names, which fail, and the errors. -/
def Naming.outline (n : Lowering.Naming) : List SchemaId × List SchemaId × List Diagnostic :=
  (n.names.map (·.1), n.failed, n.diagnostics)

theorem nameDefinitions_outline : ∀ (ds : List Definition) {n n' : Lowering.Naming}, n.outline = n'.outline →
    (nameDefinitions n ds).outline = (nameDefinitions n' ds).outline
  | [], _, _, h => h
  | d :: ds, n, n', h => by
    obtain ⟨hnames, hrest⟩ := Prod.mk.inj h
    obtain ⟨hfailed, hdiagnostics⟩ := Prod.mk.inj hrest
    rw [nameDefinitions, nameDefinitions]
    cases d.node with
    | ok node => exact nameDefinitions_outline ds (by simp [Naming.outline, hnames, hfailed, hdiagnostics])
    | error e => exact nameDefinitions_outline ds (by simp [Naming.outline, hnames, hfailed, hdiagnostics])

/-- What of the drafts of definitions does not depend on the target. -/
def Drafts.outline (s : Drafts) :
    List SchemaId × List Diagnostic × List (SchemaId × List (SchemaId × Option String) × List SchemaId × List Diagnostic) :=
  (s.failed, s.diagnostics, s.drafts.map fun p => (p.1, p.2.outline))

/-- What of the model so far does not depend on the target. -/
def Assembly.outline (a : Assembly) : List SchemaId × List (SchemaId × Option String) ×
    List (String × Method × String × Option String × Option String × Bool) × List Diagnostic :=
  (a.inlineNames.map (·.1), a.model.types.map fun t => (t.source, t.doc), a.model.operations.map OperationDef.header,
    a.model.diagnostics.filter Diagnostic.isError)

theorem Assembly.outline_commit {a a' : Assembly} {d d' : Draft} (h : a.outline = a'.outline)
    (hd : d.outline = d'.outline) : (a.commit d).outline = (a'.commit d').outline := by
  simp only [Assembly.outline, Draft.outline, Prod.mk.injEq] at h hd
  simp [Assembly.outline, Assembly.commit, h, hd]

theorem outline_foldl_commit : ∀ {drafts drafts' : List (SchemaId × Draft)} {a a' : Assembly},
    drafts.map (·.2.outline) = drafts'.map (·.2.outline) → a.outline = a'.outline →
      (drafts.foldl (fun a (_, draft) => a.commit draft) a).outline =
        (drafts'.foldl (fun a (_, draft) => a.commit draft) a').outline
  | [], [], _, _, _, h => h
  | [], _ :: _, _, _, hd, _ => by cases hd
  | _ :: _, [], _, _, hd, _ => by cases hd
  | p :: drafts, p' :: drafts', a, a', hd, h => by
    obtain ⟨hp, hrest⟩ := List.cons.inj hd
    rw [List.foldl_cons, List.foldl_cons]
    exact outline_foldl_commit hrest (Assembly.outline_commit h hp)

section Stages

variable {c c' : Context}

/-- A definition is lowered in both contexts or in neither. -/
theorem Context.Agrees.lowers (h : c.Agrees c') (d : Definition) : c.lowers d = c'.lowers d := by
  have hsome : (c.names.lookup d.id).isSome = (c'.names.lookup d.id).isSome := by
    rw [Bool.eq_iff_iff, lookup_isSome_iff, lookup_isSome_iff, h.names]
  rw [Context.lowers, Context.lowers, hsome]

theorem Context.Agrees.about (h : c.Agrees c') (failed : List SchemaId) (id : SchemaId) :
    (c.about failed id).Agrees (c'.about failed id) :=
  { h with failed := rfl, unit := rfl }

/-- Lowering a definition in both contexts ends in a matching way. -/
theorem Context.Lowered.matches {d : Definition} {failed : List SchemaId} {r r' : Registry} {node node' : SchemaNode}
    {name name' : String} {answer answer' : Except Diagnostic Unit} {draft draft' : Draft}
    (h : c.Agrees c') (hl : c.Lowered d failed r node name answer draft)
    (hl' : c'.Lowered d failed r' node' name' answer' draft') :
    Matches (fun _ _ => True) (answer, draft) (answer', draft') := by
  obtain rfl : node = node' := Except.ok.inj (hl.node_eq.symm.trans hl'.node_eq)
  have hm := lowerDefinition_together (h.about failed d.id) d.id name name' node (Draft.start r) (Draft.start r') rfl
  rwa [hl.run_eq, hl'.run_eq] at hm

theorem Drafts.Step.outline {d : Definition} {s s' t t' : Drafts} (h : c.Agrees c') (hs : s.outline = s'.outline)
    (ht : Drafts.Step c d s t) (ht' : Drafts.Step c' d s' t') : t.outline = t'.outline := by
  have hfailed : s.failed = s'.failed := congrArg (·.1) hs
  have hdiagnostics : s.diagnostics = s'.diagnostics := congrArg (·.2.1) hs
  have hdrafts : s.drafts.map (fun p => (p.1, p.2.outline)) = s'.drafts.map fun p => (p.1, p.2.outline) :=
    congrArg (·.2.2) hs
  cases ht with
  | passed hno =>
    rw [h.lowers] at hno
    cases ht' with
    | passed => exact hs
    | drafted hl' => exact absurd hl'.lowers (by simp [hno])
    | failed hl' => exact absurd hl'.lowers (by simp [hno])
  | drafted hl =>
    have hyes := (h.lowers d).symm.trans hl.lowers
    rw [hfailed] at hl
    cases ht' with
    | passed hno => exact absurd hyes (by simp [hno])
    | drafted hl' =>
      cases Context.Lowered.matches h hl hl' with
      | answers _ houtline => simp [Drafts.outline, hfailed, hdiagnostics, hdrafts, houtline]
    | failed hl' => cases Context.Lowered.matches h hl hl'
  | failed hl =>
    have hyes := (h.lowers d).symm.trans hl.lowers
    rw [hfailed] at hl
    cases ht' with
    | passed hno => exact absurd hyes (by simp [hno])
    | drafted hl' => cases Context.Lowered.matches h hl hl'
    | failed hl' =>
      cases Context.Lowered.matches h hl hl' with
      | failures => simp [Drafts.outline, hfailed, hdiagnostics, hdrafts]

theorem lowerDefinitions_outline (h : c.Agrees c') : ∀ (ds : List Definition) {s s' : Drafts},
    s.outline = s'.outline → (lowerDefinitions c s ds).outline = (lowerDefinitions c' s' ds).outline
  | [], _, _, hs => hs
  | d :: ds, s, s', hs => by
    obtain ⟨t, ht, heq⟩ := lowerDefinitions_cons c s d ds
    obtain ⟨t', ht', heq'⟩ := lowerDefinitions_cons c' s' d ds
    rw [heq, heq']
    exact lowerDefinitions_outline h ds (ht.outline h hs ht')

theorem Assembly.Step.outline {o : Operation} {a a' b b' : Assembly} (h : c.Agrees c') (ha : a.outline = a'.outline)
    (hb : Assembly.Step c o a b) (hb' : Assembly.Step c' o a' b') : b.outline = b'.outline := by
  have hinline : a.inlineNames.map (·.1) = a'.inlineNames.map (·.1) := congrArg (·.1) ha
  have hagrees : (c.during a.inlineNames o.id).Agrees (c'.during a'.inlineNames o.id) :=
    { h with inlineNames := hinline, unit := rfl }
  have hm := lowerOperation_together hagrees o (Draft.start a.registry) (Draft.start a'.registry) rfl
  simp only [Assembly.outline, Prod.mk.injEq] at ha
  cases hb with
  | added hrun =>
    cases hb' with
    | added hrun' =>
      rw [hrun, hrun'] at hm
      have hheader := (lowerOperation_header _ o _).answer hrun
      have hheader' := (lowerOperation_header _ o _).answer hrun'
      cases hm with
      | answers _ houtline =>
        simp only [Draft.outline, Prod.mk.injEq] at houtline
        simp [Assembly.outline, ha, houtline, hheader, hheader']
    | failed hrun' =>
      rw [hrun, hrun'] at hm
      cases hm
  | failed hrun =>
    cases hb' with
    | added hrun' =>
      rw [hrun, hrun'] at hm
      cases hm
    | failed hrun' =>
      rw [hrun, hrun'] at hm
      cases hm with
      | failures => simp [Assembly.outline, ha]

theorem lowerOperations_outline (h : c.Agrees c') : ∀ (os : List Operation) {a a' : Assembly},
    a.outline = a'.outline → (lowerOperations c a os).outline = (lowerOperations c' a' os).outline
  | [], _, _, ha => ha
  | o :: os, a, a', ha => by
    obtain ⟨b, hb, heq⟩ := lowerOperations_cons c a o os
    obtain ⟨b', hb', heq'⟩ := lowerOperations_cons c' a' o os
    rw [heq, heq']
    exact lowerOperations_outline h os (hb.outline h ha hb')

end Stages

/-! ## Models -/

section Models

variable (g : SchemaGraph) (target target' : Target) {config config' : Config}
  (hpayloads : config.unknownPayloads = config'.unknownPayloads)
  (hfields : config.unknownFields = config'.unknownFields)

theorem named_outline : (named g target).outline = (named g target').outline :=
  nameDefinitions_outline g.definitions rfl

include hpayloads hfields

theorem context_agrees : (context g target config).Agrees (context g target' config') where
  graph := rfl
  unknownPayloads := hpayloads
  unknownFields := hfields
  names := congrArg (·.1) (named_outline g target target')
  inlineNames := rfl
  failed := congrArg (·.2.1) (named_outline g target target')
  unit := rfl

theorem drafted_outline : (drafted g target config).outline = (drafted g target' config').outline := by
  refine lowerDefinitions_outline (context_agrees g target target' hpayloads hfields) g.definitions ?_
  obtain ⟨-, hrest⟩ := Prod.mk.inj (named_outline g target target')
  obtain ⟨hfailed, hdiagnostics⟩ := Prod.mk.inj hrest
  simp [Drafts.outline, start, hfailed, hdiagnostics]

/-- Failures spread over the same definitions. -/
theorem spreaded_eq : spreaded g target config = spreaded g target' config' := by
  obtain ⟨hfailed, hrest⟩ := Prod.mk.inj (drafted_outline g target target' hpayloads hfields)
  have hids : (drafted g target config).drafts.map (·.1) = (drafted g target' config').drafts.map (·.1) := by
    simpa [Function.comp_def] using congrArg (List.map (·.1)) (Prod.mk.inj hrest).2
  rw [spreaded, spreaded, hids, hfailed]

theorem assembled_outline : (assembled g target config).outline = (assembled g target' config').outline := by
  obtain ⟨-, hrest⟩ := Prod.mk.inj (drafted_outline g target target' hpayloads hfields)
  obtain ⟨hdiagnostics, hdrafts⟩ := Prod.mk.inj hrest
  have hspread := spreaded_eq g target target' hpayloads hfields
  have hlost : lost g target config = lost g target' config' := congrArg (·.1) hspread
  refine outline_foldl_commit ?_ (by simp [Assembly.outline, hdiagnostics, hspread])
  have hkept : ((drafted g target config).drafts.map fun p => (p.1, p.2.outline)).filter
        (fun p => !(lost g target config).contains p.1) =
      ((drafted g target' config').drafts.map fun p => (p.1, p.2.outline)).filter
        fun p => !(lost g target' config').contains p.1 := by
    rw [hdrafts, hlost]
  rw [List.filter_map, List.filter_map] at hkept
  simpa [Function.comp_def, kept] using congrArg (List.map (·.2)) hkept

end Models

end Lowering

end ContractBindings
