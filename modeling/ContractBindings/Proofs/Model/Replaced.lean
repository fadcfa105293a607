import ContractBindings.Proofs.Model.Payloads
import ContractBindings.Proofs.Model.Rejected

/-!
# Payloads without a shape, in place and by reference

A payload may be without a shape, or refer in its place to a definition whose chain ends without one. Nothing is made of
either (`lower_bare`): both are refused where such payloads are rejected. Where they are not and other schemas may be
without a shape, too, no definition on the chain is lost (`usable_of_endsShapeless`), so neither payload is refused. Lowered
side by side, operations that differ in such payloads alone are both taken into the model or both left out
(`lowerOperation_even`), and what they leave behind is alike for the operations after them (`lowerOperations_level`).
-/

namespace ContractBindings

open Naming

/-- A schema without a shape is replaced by a reference to a definition whose chain ends without one. No definition stands in
its place, and nothing that becomes a type. -/
structure SchemaGraph.Replaces (g : SchemaGraph) (operations : List Operation) (n n' : SchemaNode) : Prop where
  unknown : n.shape = .unknown
  inline : g.defines n.id = false
  plain : ∀ shape, g.Bears operations n.id shape → Lowering.isComposite shape = false
  id_eq : n'.id = n.id
  reference : ∃ t, n'.shape = .reference t ∧ g.EndsShapeless t

/-- An operation in which schemas without a shape may be replaced. -/
structure SchemaGraph.Restates (g : SchemaGraph) (operations : List Operation) (o o' : Operation) : Prop where
  id_eq : o'.id = o.id
  schemas : List.Forall₂ (fun n n' => n' = n ∨ g.Replaces operations n n') o.schemas o'.schemas

namespace Lowering

/-! ## Definitions whose chain ends without a shape -/

section Definitions

variable {g : SchemaGraph} {config : Config}

/-- A definition whose chain ends without a shape has a canonical form: without a shape, or a reference to such a
definition. -/
theorem exists_definition_of_endsShapeless {t : SchemaId} (h : g.EndsShapeless t) :
    ∃ d ∈ g.definitions, d.id = t ∧ ∃ node, d.node = .ok node ∧
      (node.shape = .unknown ∨ ∃ next, node.shape = .reference next ∧ g.EndsShapeless next) := by
  rcases h.cases with ⟨node, hnode, hshape⟩ | ⟨next, node, hnode, hshape, hnext⟩
  · obtain ⟨d, hd, hid, hok⟩ := exists_definition_of_node? hnode
    exact ⟨d, hd, hid, node, hok, .inl hshape⟩
  · obtain ⟨d, hd, hid, hok⟩ := exists_definition_of_node? hnode
    exact ⟨d, hd, hid, node, hok, .inr ⟨next, hshape, hnext⟩⟩

theorem named_of_endsShapeless (target : Target) {t : SchemaId} (h : g.EndsShapeless t) :
    ((named g target).names.lookup t).isSome = true := by
  obtain ⟨d, hd, hid, node, hok, -⟩ := exists_definition_of_endsShapeless h
  exact lookup_names_isSome_iff.2 ⟨d, hd, hid, by simp [hok, Except.isOk, Except.toBool]⟩

/-- Where schemas may be without a shape, a definition whose chain ends without one can be used: it is lowered if the
definitions on its chain have not failed. -/
theorem usable_of_endsShapeless (target : Target) (hids : (g.definitions.map (·.id)).Nodup)
    (hfields : config.unknownFields = .opaqueValue) {t : SchemaId} (h : g.EndsShapeless t) :
    ((operationContext g target config).names.lookup t).isSome = true ∧
      t ∉ (operationContext g target config).failed := by
  have hshape {d : Definition} (hd : d ∈ g.definitions) (hend : g.EndsShapeless d.id) : ∃ node, d.node = .ok node ∧
      (node.shape = .unknown ∨ ∃ next, node.shape = .reference next ∧ g.EndsShapeless next) := by
    obtain ⟨d', hd', hid, hspec⟩ := exists_definition_of_endsShapeless hend
    obtain rfl : d' = d := List.inj_on_of_nodup_map hids hd' hd hid
    exact hspec
  refine ⟨named_of_endsShapeless target h, fun hlost => ?_⟩
  refine lost_least hids (P := fun k => ¬ g.EndsShapeless k) ?error ?lowered ?refers t hlost h
  case error =>
    intro d hd e he hend
    obtain ⟨node, hok, -⟩ := hshape hd hend
    cases he.symm.trans hok
  case lowered =>
    intro d hd failed r node name e draft hl hfailed hend
    obtain ⟨node', hok, hcases⟩ := hshape hd hend
    obtain rfl : node = node' := Except.ok.inj (hl.node_eq.symm.trans hok)
    have hends : Ends (lowerDefinition ((context g target config).about failed d.id) d.id name node) (Draft.start r)
        (fun _ _ => True) fun _ _ => False := by
      rcases hcases with hunknown | ⟨next, hreference, hnext⟩
      · simp [lowerDefinition, hunknown, isComposite, describe, unknownShape, hfields, Context.about, context, warn,
          insertType]
      · simp only [lowerDefinition, hreference, isComposite, Bool.false_eq_true, ↓reduceIte, describe, insertType,
          ends_bind, ends_pure, ends_modify]
        refine (useDefinition_ends ((context g target config).about failed d.id) next (Draft.start r)).mono
          (fun _ _ _ => trivial) fun _ _ hno => hno ⟨named_of_endsShapeless target hnext, fun hbad => ?_⟩
        exact hfailed next hbad hnext
    exact hends.failure hl.run_eq
  case refers =>
    intro d hd node hnode y hy hbad hend
    obtain ⟨node', hok, hcases⟩ := hshape hd hend
    obtain rfl : node = node' := Except.ok.inj (hnode.symm.trans hok)
    rw [SchemaNode.references_eq] at hy
    rcases hcases with hunknown | ⟨next, hreference, hnext⟩
    · rw [hunknown] at hy
      cases hy
    · rw [hreference] at hy
      exact hbad (List.mem_singleton.1 hy ▸ hnext)

end Definitions

/-! ## Payloads of which nothing is made -/

/-- A payload in its own place without a shape, or with a reference to a definition whose chain ends without one; the
definition can be used unless it is refused for that. -/
structure Context.Bare (c : Context) (n : SchemaNode) : Prop where
  inline : c.graph.defines n.id = false
  shape : n.shape = .unknown ∨ ∃ t, n.shape = .reference t ∧ c.graph.EndsShapeless t ∧
    (c.config.unknownPayloads ≠ .reject → (c.names.lookup t).isSome = true ∧ t ∉ c.failed)

/-- A reference to a definition whose chain ends without a shape is used, unless such payloads are rejected. -/
theorem lower_endsShapeless {c : Context} {n : SchemaNode} {s : Draft} {t : SchemaId} {hint : String}
    (hshape : n.shape = .reference t) (hend : c.graph.EndsShapeless t)
    (husable : c.config.unknownPayloads ≠ .reject → (c.names.lookup t).isSome = true ∧ t ∉ c.failed)
    (hdefines : c.graph.defines n.id = false) (hnamed : n.id ∉ c.inlineNames.map (·.1))
    (hrecorded : n.id ∉ s.recorded) :
    Ends (lower c hint .payload n) s (fun _ s' => c.config.unknownPayloads ≠ .reject ∧ s'.outline = s.outline)
      fun _ _ => c.config.unknownPayloads = .reject := by
  obtain ⟨id, title, description, nullable, shape⟩ := n
  obtain rfl : shape = .reference t := hshape
  rw [lower]
  by_cases hpolicy : c.config.unknownPayloads = .reject
  · have hsome : (shapelessDefinition c.graph (.mk id title description nullable (.reference t))).isSome = true :=
      (shapelessDefinition_isSome_iff hdefines).2 ⟨t, rfl, hend⟩
    exact ends_bind.2 ((known?_refuses hpolicy hsome).mono (fun _ _ h => h.elim) fun _ _ _ => hpolicy)
  · rw [known?_payload fun hreject => absurd hreject hpolicy]
    refine ends_bind.2 ((known?_new hdefines hnamed hrecorded).mono ?_ fun _ _ h => h.elim)
    rintro type s' ⟨rfl, rfl⟩
    simp only [isComposite, Bool.false_eq_true, ↓reduceIte, describe]
    refine ends_bind.2 (ends_bind.2 ((useDefinition_ends c t s').mono ?_ fun _ _ hno => absurd (husable hpolicy) hno))
    rintro kind s'' ⟨-, -, rfl⟩
    exact ends_pure.2 (ends_pure.2 ⟨hpolicy, rfl⟩)

/-- A bare payload is refused where payloads without a shape are rejected; else nothing is made of it. -/
theorem lower_bare {c : Context} {n : SchemaNode} {s : Draft} (hint : String) (h : c.Bare n)
    (hnamed : n.id ∉ c.inlineNames.map (·.1)) (hrecorded : n.id ∉ s.recorded) :
    Ends (lower c hint .payload n) s (fun _ s' => c.config.unknownPayloads ≠ .reject ∧ s'.outline = s.outline)
      fun _ _ => c.config.unknownPayloads = .reject := by
  rcases h.shape with hunknown | ⟨t, hreference, hend, husable⟩
  · exact lower_unknown hunknown h.inline hnamed hrecorded
  · exact lower_endsShapeless hreference hend husable h.inline hnamed hrecorded

/-! ## Runs that end alike -/

/-- Two endings that are alike: answers with drafts of one outline that have recorded certain identities only, or failures.
-/
inductive Levels (made : SchemaId → Prop) : Except Diagnostic α × Draft → Except Diagnostic β × Draft → Prop
  | answers {a : α} {b : β} {s s' : Draft} : s.outline = s'.outline → (∀ id ∈ s.recorded, made id) →
      Levels made (.ok a, s) (.ok b, s')
  | failures {e e' : Diagnostic} {s s' : Draft} : Levels made (.error e, s) (.error e', s')

/-- From drafts of one outline that have recorded certain identities only, two computations end alike. -/
def Even (made : SchemaId → Prop) (x : Lower α) (y : Lower β) : Prop :=
  ∀ s s' : Draft, s.outline = s'.outline → (∀ id ∈ s.recorded, made id) → Levels made (x.run.run s) (y.run.run s')

namespace Even

variable {made : SchemaId → Prop} {x : Lower α} {y : Lower β}

theorem pure {a : α} {b : β} : Even made (Pure.pure a) (Pure.pure b) := fun _ _ hs hmade => .answers hs hmade

theorem bind {f : α → Lower γ} {g : β → Lower δ} (hx : Even made x y) (hf : ∀ a b, Even made (f a) (g b)) :
    Even made (x >>= f) (y >>= g) := by
  intro s s' hs hmade
  have h := hx s s' hs hmade
  rcases hrun : x.run.run s with ⟨answer, t⟩
  rcases hrun' : y.run.run s' with ⟨answer', t'⟩
  rw [hrun, hrun'] at h
  cases h with
  | answers ht hmade' =>
    rw [run_bind_of_ok hrun, run_bind_of_ok hrun']
    exact hf _ _ t t' ht hmade'
  | failures =>
    rw [run_bind_of_error hrun, run_bind_of_error hrun']
    exact .failures

/-- Computations that end in a matching way end alike if one of them records certain identities only. -/
theorem of_alongside {c : Context} (h : Alongside x y) (hx : Collects c made x) : Even made x y := by
  intro s s' hs hmade
  have hm := h s s' hs
  rcases hrun : x.run.run s with ⟨answer, t⟩
  rw [hrun] at hm
  generalize y.run.run s' = ending at hm
  cases hm with
  | answers _ houtline =>
    obtain ⟨ids, hrecords⟩ := (hx s).answer hrun
    refine .answers houtline fun id hid => ?_
    rw [hrecords.recorded_eq, List.mem_append] at hid
    exact hid.elim (hmade id) (hrecords.made id)
  | failures => exact .failures

/-- What ends in a matching way on both sides makes no difference. -/
theorem congr {x' : Lower γ} {y' : Lower δ} (h : Even made x y) (hx : Alongside x' x) (hy : Alongside y y') :
    Even made x' y' := by
  intro s s' hs hmade
  have hm := h s s' hs hmade
  have hmx := hx s s rfl
  have hmy := hy s' s' rfl
  generalize x.run.run s = ending at hm hmx
  generalize y.run.run s' = ending' at hm hmy
  generalize x'.run.run s = first at hmx
  generalize y'.run.run s' = second at hmy
  cases hm with
  | answers houtline hrecorded =>
    cases hmx with
    | answers _ hx =>
      cases hmy with
      | answers _ hy => exact .answers (hx.trans (houtline.trans hy)) (Draft.recorded_eq hx ▸ hrecorded)
  | failures =>
    cases hmx with
    | failures =>
      cases hmy with
      | failures => exact .failures

end Even

/-! ## Operations in which bare payloads are replaced -/

/-- Two payloads that end alike: a node that makes types of certain identities only, or bare payloads of other ones. -/
inductive Context.Swaps (c : Context) (made : SchemaId → Prop) : SchemaNode → SchemaNode → Prop
  | same {n : SchemaNode} : (∀ id, n.Makes c.graph id → made id) → Swaps c made n n
  | bare {n n' : SchemaNode} : c.Bare n → c.Bare n' → ¬ made n.id → ¬ made n'.id → Swaps c made n n'

section Swaps

variable {c c' : Context} {made : SchemaId → Prop}

/-- The names that two contexts know are those of certain identities. -/
structure Context.Knows (c c' : Context) (made : SchemaId → Prop) : Prop extends c.Agrees c' where
  made : ∀ id ∈ c.inlineNames.map (·.1), made id
  names_eq : c.names = c'.names

theorem Context.Bare.of_knows (hk : c.Knows c' made) {n : SchemaNode} (h : c.Bare n) : c'.Bare n where
  inline := hk.graph ▸ h.inline
  shape := by
    rw [← hk.graph, ← hk.unknownPayloads, ← hk.names_eq, ← hk.failed]
    exact h.shape

variable (hk : c.Knows c' made)

include hk

theorem lower_even {n n' : SchemaNode} (h : c.Swaps made n n') (hint hint' : String) :
    Even made (lower c hint .payload n) (lower c' hint' .payload n') := by
  cases h with
  | same hmade =>
    exact .of_alongside (lower_together hk.toAgrees n hint hint' .payload)
      ((lower_collects c n hint .payload).mono hmade)
  | bare hn hn' hfree hfree' =>
    intro s s' hs hmade
    have h := lower_bare hint hn (fun hid => hfree (hk.made _ hid)) fun hid => hfree (hmade _ hid)
    have h' := lower_bare (s := s') hint' (hn'.of_knows hk) (fun hid => hfree' (hk.made _ (hk.inlineNames ▸ hid)))
      fun hid => hfree' (hmade _ (Draft.recorded_eq hs ▸ hid))
    rw [← hk.unknownPayloads] at h'
    rcases hrun : (lower c hint .payload n).run.run s with ⟨e | type, t⟩
    · rcases hrun' : (lower c' hint' .payload n').run.run s' with ⟨e' | type', t'⟩
      · exact .failures
      · exact absurd (h.failure hrun) (h'.answer hrun').1
    · obtain ⟨hpolicy, ht⟩ := h.answer hrun
      rcases hrun' : (lower c' hint' .payload n').run.run s' with ⟨e' | type', t'⟩
      · exact absurd (h'.failure hrun') hpolicy
      · exact .answers (ht.trans (hs.trans (h'.answer hrun').2.symm)) (Draft.recorded_eq ht ▸ hmade)

theorem lowerAll_even {nodes nodes' : List SchemaNode} (h : List.Forall₂ (c.Swaps made) nodes nodes') :
    Even made (lowerAll c nodes) (lowerAll c' nodes') := by
  induction h with
  | nil => exact .pure
  | cons hn _ ih => exact (lower_even hk hn _ _).bind fun _ _ => ih

theorem lowerOperation_even {o o' : Operation} (h : List.Forall₂ (c.Swaps made) o.schemas o'.schemas) :
    Even made (lowerOperation c o) (lowerOperation c' o') :=
  (lowerAll_even hk h).congr (lowerOperation_lowerAll c o) (lowerOperation_lowerAll c' o').symm

end Swaps

/-! ## The operations of a model -/

/-- Two models so far with the same operations; the types inside both have names for the same identities, and only for
certain ones. -/
structure Assembly.Level (made : SchemaId → Prop) (a a' : Assembly) : Prop where
  inlineNames : a.inlineNames.map (·.1) = a'.inlineNames.map (·.1)
  made : ∀ id ∈ a.inlineNames.map (·.1), made id
  operations : a.model.operations.map (·.id) = a'.model.operations.map (·.id)

section Operations

variable {c : Context} {made : SchemaId → Prop} {a a' : Assembly} {o o' : Operation}

theorem Context.Swaps.during {n n' : SchemaNode} (h : c.Swaps made n n') (names : List (SchemaId × String))
    (unit : String) : (c.during names unit).Swaps made n n' := by
  cases h with
  | same hmade => exact .same hmade
  | bare hn hn' hfree hfree' => exact .bare ⟨hn.inline, hn.shape⟩ ⟨hn'.inline, hn'.shape⟩ hfree hfree'

/-- Lowering operations in which bare payloads are replaced, one after the other, keeps the models level. -/
theorem lowerOperations_level {os os' : List Operation}
    (h : List.Forall₂ (fun o o' => o'.id = o.id ∧ List.Forall₂ (c.Swaps made) o.schemas o'.schemas) os os') :
    ∀ {a a' : Assembly}, a.Level made a' → (lowerOperations c a os).Level made (lowerOperations c a' os') := by
  induction h with
  | nil => exact fun ha => ha
  | @cons o o' os os' ho _ ih =>
    intro a a' ha
    have hknows : (c.during a.inlineNames o.id).Knows (c.during a'.inlineNames o'.id) made :=
      ⟨⟨rfl, rfl, rfl, rfl, ha.inlineNames, rfl, ho.1.symm⟩, ha.made, rfl⟩
    have heven := lowerOperation_even hknows (ho.2.imp fun _ _ hn => hn.during _ _) (Draft.start a.registry)
      (Draft.start a'.registry) rfl (by simp [Draft.recorded, Draft.start])
    change Levels made (a.attempt c o) (a'.attempt c o') at heven
    rcases hrun : a.attempt c o with ⟨answer, draft⟩
    rcases hrun' : a'.attempt c o' with ⟨answer', draft'⟩
    rw [hrun, hrun'] at heven
    cases heven with
    | @answers operation operation' _ _ houtline hrecorded =>
      rw [lowerOperations_of_ok os hrun, lowerOperations_of_ok os' hrun']
      have hid : operation.id = o.id := (lowerOperation_id _ o _).answer hrun
      have hid' : operation'.id = o'.id := (lowerOperation_id _ o' _).answer hrun'
      have hkeys : draft.inlineNames.map (·.1) = draft'.inlineNames.map (·.1) := Draft.recorded_eq houtline
      refine ih ⟨?_, ?_, ?_⟩
      · simp [Assembly.accept, hkeys, ha.inlineNames]
      · intro id hmem
        rw [Assembly.accept, List.map_append, List.map_reverse, List.mem_append, List.mem_reverse] at hmem
        exact hmem.elim (hrecorded id) (ha.made id)
      · simp [Assembly.accept, ha.operations, hid, hid', ho.1]
    | failures =>
      rw [lowerOperations_of_error os hrun, lowerOperations_of_error os' hrun']
      exact ih ⟨ha.inlineNames, ha.made, ha.operations⟩

variable {g : SchemaGraph} {operations operations' : List Operation} {target : Target} {config : Config}

/-- Where payloads without a shape are rejected, or neither these nor other schemas without one are, a model generates the
same operations if payloads without a shape are replaced by references to definitions whose chains end without one. -/
theorem ofGraph_operations_replaced (hids : (g.definitions.map (·.id)).Nodup)
    (hpolicy : config.unknownPayloads = .reject ∨ config.unknownFields = .opaqueValue)
    (h : List.Forall₂ (g.Restates operations) operations operations') :
    (Model.ofGraph g operations' target config).operations.map (·.id) =
      (Model.ofGraph g operations target config).operations.map (·.id) := by
  let made (id : SchemaId) : Prop := ∃ shape, g.Bears operations id shape ∧ isComposite shape = true
  have hswaps {o : Operation} (ho : o ∈ operations) {n n' : SchemaNode} (hn : n ∈ o.schemas)
      (hreplaced : n' = n ∨ g.Replaces operations n n') : (operationContext g target config).Swaps made n n' := by
    rcases hreplaced with rfl | hreplaced
    · refine .same fun id hmakes => ?_
      rcases hmakes with ⟨-, ⟨hcomposite, rfl⟩ | hinside⟩
      · exact ⟨n'.shape, .operation ho hn (.inl ⟨rfl, rfl⟩), hcomposite⟩
      · obtain ⟨k, hk, hkid, hcomposite⟩ := hinside.holds
        exact ⟨k.shape, .operation ho hn (.inr ⟨k, hk, hkid, rfl⟩), hcomposite⟩
    · have hfree : ¬ made n.id := by
        rintro ⟨shape, hbears, hcomposite⟩
        exact Bool.false_ne_true ((hreplaced.plain shape hbears).symm.trans hcomposite)
      obtain ⟨t, hshape, hend⟩ := hreplaced.reference
      have husable (hreject : config.unknownPayloads ≠ .reject) :=
        usable_of_endsShapeless target hids (hpolicy.resolve_left hreject) hend
      exact .bare ⟨hreplaced.inline, .inl hreplaced.unknown⟩
        ⟨hreplaced.id_eq ▸ hreplaced.inline, .inr ⟨t, hshape, hend, husable⟩⟩ hfree (hreplaced.id_eq ▸ hfree)
  have hall : List.Forall₂ (fun o o' => o'.id = o.id ∧
      List.Forall₂ ((operationContext g target config).Swaps made) o.schemas o'.schemas) operations operations' := by
    refine ((List.forall₂_and_left _ _).2 ⟨fun _ ho => ho, h⟩).imp fun o o' ho => ⟨ho.2.id_eq, ?_⟩
    refine ((List.forall₂_and_left _ _).2 ⟨fun _ hn => hn, ho.2.schemas⟩).imp fun n n' hn => ?_
    exact hswaps ho.1 hn.1 hn.2
  have hstart : (assembled g target config).Level made (assembled g target config) := by
    refine ⟨rfl, fun id hid => ?_, rfl⟩
    obtain ⟨d, hd, node, k, hnode, -, hk, hkid, hcomposite⟩ := assembled_recorded hid
    exact ⟨k.shape, hkid ▸ .of_holds hd hnode hk, hcomposite⟩
  rw [ofGraph_eq, ofGraph_eq]
  exact (lowerOperations_level hall hstart).operations.symm

end Operations

end Lowering

end ContractBindings
