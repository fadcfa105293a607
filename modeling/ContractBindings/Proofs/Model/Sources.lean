import Mathlib.Data.List.Nodup
import ContractBindings.Proofs.Model.Generated
import ContractBindings.Proofs.Model.Traversal

/-!
# The schemas that types are made of

A node that becomes a type of its own is recorded by its identity, and a node whose identity is recorded becomes no
further type. So the types of one draft are made of different schemas, of those inside its definition or operation that
are no definitions themselves (`lower_collects`). An operation knows what was recorded for all definitions and operations
before it; a definition does not know what is recorded for other definitions. So the types of a model are made of
different schemas, if no two of its definitions make a type of schemas with one identity (`ofGraph_sources_nodup`).
-/

namespace ContractBindings

open Naming Lowering

/-! ## The schemas that become types -/

/-- A shape makes a type of the schema with an identity: a node in it becomes one, and stands in no definition there. -/
inductive Shape.Makes (g : SchemaGraph) : Shape → SchemaId → Prop
  | child {s : Shape} {m : SchemaNode} : m ∈ s.children → g.defines m.id = false → isComposite m.shape = true →
      Makes g s m.id
  | deeper {s : Shape} {m : SchemaNode} {id : SchemaId} : m ∈ s.children → g.defines m.id = false →
      Makes g m.shape id → Makes g s id

/-- A node makes a type of the schema with an identity: of itself or of a node in it. -/
def SchemaNode.Makes (g : SchemaGraph) (n : SchemaNode) (id : SchemaId) : Prop :=
  g.defines n.id = false ∧ (isComposite n.shape = true ∧ n.id = id ∨ n.shape.Makes g id)

/-- A shape makes the types that the nodes in it make. -/
theorem Shape.makes_iff {g : SchemaGraph} {s : Shape} {id : SchemaId} :
    s.Makes g id ↔ ∃ m ∈ s.children, m.Makes g id := by
  constructor
  · rintro (⟨hm, hinline, hcomposite⟩ | ⟨hm, hinline, h⟩)
    · exact ⟨_, hm, hinline, .inl ⟨hcomposite, rfl⟩⟩
    · exact ⟨_, hm, hinline, .inr h⟩
  · rintro ⟨m, hm, hinline, ⟨hcomposite, rfl⟩ | h⟩
    · exact .child hm hinline hcomposite
    · exact .deeper hm hinline h

/-- Two definitions of which types are generated do not both make a type of the schema with an identity. -/
def SchemaGraph.Apart (g : SchemaGraph) (generated : SchemaId → Prop) : Prop :=
  ∀ d ∈ g.definitions, ∀ d' ∈ g.definitions, ∀ node node' id, d.node = .ok node → d'.node = .ok node' →
    generated d.id → generated d'.id → node.shape.Makes g id → node'.shape.Makes g id → d.id = d'.id

namespace Lowering

/-! ## Records -/

/-- The identities with a recorded name. -/
def Draft.recorded (s : Draft) : List SchemaId := s.inlineNames.map (·.1)

/-- The identities that are recorded on the way differ, had no name before, and are those of schemas that are made into
types. -/
structure Draft.Records (c : Context) (made : SchemaId → Prop) (ids : List SchemaId) (s s' : Draft) : Prop where
  recorded_eq : s'.recorded = s.recorded ++ ids
  nodup : ids.Nodup
  fresh : ∀ id ∈ ids, id ∉ s.recorded
  unknown : ∀ id ∈ ids, id ∉ c.inlineNames.map (·.1)
  made : ∀ id ∈ ids, made id

variable {c : Context} {made made' : SchemaId → Prop} {ids ids' : List SchemaId} {s s' s'' : Draft}

namespace Draft.Records

/-- What leaves the recorded names as they are. -/
theorem of_eq (h : s'.inlineNames = s.inlineNames) : Draft.Records c made [] s s' where
  recorded_eq := by simp [Draft.recorded, h]
  nodup := List.nodup_nil
  fresh := by simp
  unknown := by simp
  made := by simp

theorem trans (h : Draft.Records c made ids s s') (h' : Draft.Records c made ids' s' s'') :
    Draft.Records c made (ids ++ ids') s s'' where
  recorded_eq := by rw [h'.recorded_eq, h.recorded_eq, List.append_assoc]
  nodup := by
    refine List.nodup_append.2 ⟨h.nodup, h'.nodup, fun id hid id' hid' heq => ?_⟩
    refine h'.fresh id' hid' ?_
    rw [h.recorded_eq]
    exact List.mem_append_right _ (heq ▸ hid)
  fresh := by
    intro id hid
    rcases List.mem_append.1 hid with hid | hid
    · exact h.fresh id hid
    · have hnew := h'.fresh id hid
      rw [h.recorded_eq, List.mem_append, not_or] at hnew
      exact hnew.1
  unknown := List.forall_mem_append.2 ⟨h.unknown, h'.unknown⟩
  made := List.forall_mem_append.2 ⟨h.made, h'.made⟩

theorem mono (h : Draft.Records c made ids s s') (hm : ∀ id, made id → made' id) : Draft.Records c made' ids s s' :=
  { h with made := fun id hid => hm id (h.made id hid) }

/-- A schema is recorded before those inside it. -/
theorem inline {id : SchemaId} {name : String} {r : Registry} {types : List TypeDef} (hnew : id ∉ s.recorded)
    (hunknown : id ∉ c.inlineNames.map (·.1)) (hmade : made id)
    (h : Draft.Records c made ids { s with registry := r, inlineNames := s.inlineNames ++ [(id, name)] } s') :
    Draft.Records c made (id :: ids) s { s' with types := types } := by
  have hrecorded : Draft.recorded { s with registry := r, inlineNames := s.inlineNames ++ [(id, name)] } =
      s.recorded ++ [id] := by
    simp [Draft.recorded]
  constructor
  case recorded_eq =>
    have heq := h.recorded_eq
    rwa [hrecorded, List.append_assoc, List.singleton_append] at heq
  case nodup =>
    refine List.nodup_cons.2 ⟨fun hid => h.fresh id hid ?_, h.nodup⟩
    rw [hrecorded]
    exact List.mem_append_right _ List.mem_cons_self
  case fresh =>
    refine List.forall_mem_cons.2 ⟨hnew, fun id' hid' => ?_⟩
    have hfresh := h.fresh id' hid'
    rw [hrecorded, List.mem_append, not_or] at hfresh
    exact hfresh.1
  case unknown => exact List.forall_mem_cons.2 ⟨hunknown, h.unknown⟩
  case made => exact List.forall_mem_cons.2 ⟨hmade, h.made⟩

end Draft.Records

/-! ## Computations that record -/

/-- A computation that records schemas that are made into types. -/
def Collects (c : Context) (made : SchemaId → Prop) (x : Lower α) : Prop :=
  ∀ s, Ends x s (fun _ s' => ∃ ids, Draft.Records c made ids s s') fun _ _ => True

namespace Collects

variable {x : Lower α}

theorem pure {a : α} : Collects c made (Pure.pure a : Lower α) := fun _ => ends_pure.2 ⟨[], .of_eq rfl⟩

theorem throw {e : Diagnostic} : Collects c made (MonadExcept.throw e : Lower α) := fun _ => ends_throw.2 trivial

theorem bind {f : α → Lower β} (hx : Collects c made x) (hf : ∀ a, Collects c made (f a)) :
    Collects c made (x >>= f) := by
  intro s
  refine ends_bind.2 ((hx s).mono ?_ fun _ _ _ => trivial)
  rintro a s' ⟨ids, h⟩
  refine (hf a s').mono ?_ fun _ _ _ => trivial
  rintro b s'' ⟨ids', h'⟩
  exact ⟨ids ++ ids', h.trans h'⟩

theorem mono (hx : Collects c made x) (hm : ∀ id, made id → made' id) : Collects c made' x :=
  fun s => (hx s).mono (fun _ _ ⟨ids, h⟩ => ⟨ids, h.mono hm⟩) fun _ _ _ => trivial

theorem warn (code : DiagnosticCode) (message : String) : Collects c made (Lowering.warn c code message) :=
  fun _ => ends_modify.2 ⟨[], .of_eq rfl⟩

theorem claim (base : String) : Collects c made (Lowering.claim base) := fun _ => ends_modifyGet.2 ⟨[], .of_eq rfl⟩

/-- What the nodes record that a computation lowers, it records. -/
theorem of_traverses {position : Position} {nodes : List SchemaNode} (h : Traverses c position nodes x)
    (hnodes : ∀ m ∈ nodes, ∀ hint, Collects c (m.Makes c.graph) (lower c hint position m)) :
    Collects c (fun id => ∃ m ∈ nodes, m.Makes c.graph id) x := by
  induction h with
  | pure a => exact pure
  | throw e => exact throw
  | warn code message => exact warn code message
  | node hint n => exact (hnodes n List.mem_cons_self hint).mono fun id h => ⟨n, List.mem_cons_self, h⟩
  | bind _ _ ihx ihf =>
    obtain ⟨hfirst, hsecond⟩ := List.forall_mem_append.1 hnodes
    refine ((ihx hfirst).mono ?_).bind fun a => (ihf a hsecond).mono ?_
    · exact fun id ⟨m, hm, h⟩ => ⟨m, List.mem_append_left _ hm, h⟩
    · exact fun id ⟨m, hm, h⟩ => ⟨m, List.mem_append_right _ hm, h⟩

theorem of_quiet (h : Traverses c .nested [] x) : Collects c made x :=
  (of_traverses h fun _ hm => by cases hm).mono fun _ ⟨_, hm, _⟩ => by cases hm

/-- Nothing is recorded by looking a node up, and where nothing is known of it, its identity has no name. -/
theorem known? (made : SchemaId → Prop) (node : SchemaNode) (position : Position) (s : Draft) :
    Ends (Lowering.known? c node position) s (fun type s' => (∃ ids, Draft.Records c made ids s s') ∧
      (type = none → s' = s ∧ c.graph.defines node.id = false ∧ node.id ∉ s.recorded ∧
        node.id ∉ c.inlineNames.map (·.1))) fun _ _ => True := by
  have hfound {x : Lower TypeDescriptor} (hx : Collects c made x) : Ends (some <$> x) s (fun type s' =>
      (∃ ids, Draft.Records c made ids s s') ∧ (type = none → s' = s ∧ c.graph.defines node.id = false ∧
        node.id ∉ s.recorded ∧ node.id ∉ c.inlineNames.map (·.1))) fun _ _ => True :=
    ends_map.2 ((hx s).mono (fun _ _ h => ⟨h, by simp⟩) fun _ _ _ => trivial)
  obtain ⟨x, hx, hrun⟩ := known?_as c node position s
  refine .of_run_eq hrun ?_
  cases hx with
  | refused _ _ _ => exact hfound (of_quiet (.unknownShape _ _))
  | definition _ =>
    have huse : Collects c made (Lowering.useDefinition c node.id) := of_quiet (.useDefinition node.id)
    refine ends_bind.2 ((huse s).mono (fun kind s' h => ?_) fun _ _ _ => trivial)
    exact ends_pure.2 ⟨h, by simp⟩
  | named _ _ => exact ends_pure.2 ⟨⟨[], .of_eq rfl⟩, by simp⟩
  | new hinline hunknown hnew => exact ends_pure.2 ⟨⟨[], .of_eq rfl⟩, fun _ => ⟨rfl, hinline, hnew, hunknown⟩⟩

/-- A node that becomes a type is recorded. -/
theorem defineInline {id : SchemaId} {title doc : Option String} {hint : String} {body : String → Lower TypeBody}
    (hnew : id ∉ s.recorded) (hunknown : id ∉ c.inlineNames.map (·.1)) (hmade : made id)
    (hbody : ∀ name, Collects c made (body name)) :
    Ends (Lowering.defineInline id title doc hint body) s (fun _ s' => ∃ ids, Draft.Records c made ids s s')
      fun _ _ => True := by
  rw [ends_defineInline]
  refine (hbody _ _).mono ?_ fun _ _ _ => trivial
  rintro b s' ⟨ids, h⟩
  exact ⟨id :: ids, .inline hnew hunknown hmade h⟩

end Collects

/-! ## Lowering -/

/-- Lowering a node records the schemas that it makes types of. -/
theorem lower_collects (c : Context) (n : SchemaNode) : ∀ hint position,
    Collects c (n.Makes c.graph) (lower c hint position n) := by
  induction n using SchemaNode.inductionOnChildren with
  | step n ih =>
    have hinside {α : Type} {x : Lower α} (h : Traverses c .nested n.shape.children x) :
        Collects c (n.shape.Makes c.graph) x :=
      (Collects.of_traverses h fun m hm hint => ih m hm hint .nested).mono fun id => Shape.makes_iff.2
    obtain ⟨id, title, description, nullable, shape⟩ := n
    intro hint position s
    rw [lower]
    refine ends_bind.2 ((Collects.known?
      (SchemaNode.Makes c.graph (.mk id title description nullable shape)) _ position s).mono ?_ fun _ _ _ => trivial)
    rintro type s' ⟨hrecords, hnone⟩
    cases type with
    | some type => exact ends_pure.2 hrecords
    | none =>
      obtain ⟨rfl, hinline, hnew, hunknown⟩ := hnone rfl
      dsimp only
      split
      · next hcomposite =>
        refine ends_bind.2 (ends_map.2 ?_)
        refine Collects.defineInline hnew hunknown ⟨hinline, .inl ⟨hcomposite, rfl⟩⟩ fun name => ?_
        exact (hinside (compose_traverses c id name hcomposite)).mono fun i h => ⟨hinline, .inr h⟩
      · next hplain =>
        have hdescribe := hinside (describe_traverses c id hint position (Bool.eq_false_iff.2 hplain))
        exact Collects.bind (hdescribe.mono fun i h => ⟨hinline, .inr h⟩) (fun type => Collects.pure) s'

/-- What the nodes make types of that a computation lowers is recorded. -/
theorem Traverses.collects {position : Position} {nodes : List SchemaNode} {x : Lower α}
    (h : Traverses c position nodes x) : Collects c (fun id => ∃ m ∈ nodes, m.Makes c.graph id) x :=
  .of_traverses h fun m _ hint => lower_collects c m hint position

theorem lowerDefinition_collects (c : Context) (id : SchemaId) (name : String) (node : SchemaNode) :
    Collects c (node.shape.Makes c.graph) (lowerDefinition c id name node) := by
  have hinsert (type : TypeDef) : Collects c (node.shape.Makes c.graph) (insertType 0 type) :=
    fun s => ends_modify.2 ⟨[], .of_eq rfl⟩
  have hinside {α : Type} {x : Lower α} (h : Traverses c .nested node.shape.children x) :
      Collects c (node.shape.Makes c.graph) x := h.collects.mono fun id => Shape.makes_iff.2
  unfold lowerDefinition
  split
  · next hcomposite => exact (hinside (compose_traverses c id name hcomposite)).bind fun body => hinsert _
  · next hplain =>
    refine (hinside (describe_traverses c id name .nested (Bool.eq_false_iff.2 hplain))).bind fun type => ?_
    exact Collects.bind Collects.pure fun body => hinsert _

theorem lowerOperation_collects (c : Context) (o : Operation) : Collects c (fun _ => True) (lowerOperation c o) := by
  obtain ⟨rest, hrest, heq⟩ := lowerOperation_traverses c o
  rw [heq]
  refine (Collects.claim _).bind fun request => (Collects.claim _).bind fun response => ?_
  exact (Collects.claim _).bind fun service => (hrest request response service).collects.mono fun _ _ => trivial

/-! ## The sources of the types of a model -/

section Model

variable {g : SchemaGraph} {target : Target} {config : Config}

theorem kept_defined {p : SchemaId × Draft} (hp : p ∈ kept g target config) : g.defines p.1 = true := by
  obtain ⟨-, d, hd, _, _, _, _, hid, -⟩ := kept_traced hp
  exact SchemaGraph.defines_iff.2 (hid ▸ List.mem_map_of_mem hd)

/-- The types of a kept definition are made of the definition and of different schemas inside it, which are recorded. -/
theorem kept_sources {p : SchemaId × Draft} (hp : p ∈ kept g target config) :
    ∃ d ∈ g.definitions, ∃ node, d.id = p.1 ∧ d.node = .ok node ∧ p.2.types.map (·.source) = p.1 :: p.2.recorded ∧
      p.2.recorded.Nodup ∧ ∀ id ∈ p.2.recorded, g.defines id = false ∧ node.shape.Makes g id := by
  obtain ⟨-, d, hd, failed, r, node, name, hid, -, -, hl⟩ := kept_traced hp
  obtain ⟨body, types, hg, htypes, -⟩ := hl.defines capitalized_names
  obtain ⟨ids, hrecords⟩ := (lowerDefinition_collects _ _ name node (Draft.start r)).answer hl.run_eq
  have hinline : p.2.inlineNames = types.map fun t => (t.source, t.name) := by
    simpa [Draft.start] using hg.inlineNames_eq
  have hrecorded : p.2.recorded = types.map (·.source) := by
    rw [Draft.recorded, hinline, List.map_map]
    rfl
  have hids : p.2.recorded = ids := by simpa [Draft.recorded, Draft.start] using hrecords.recorded_eq
  refine ⟨d, hd, node, hid, hl.node_eq, ?_, hids ▸ hrecords.nodup, fun id hmem => ⟨?_, ?_⟩⟩
  · rw [htypes, List.map_cons, hrecorded, hid]
  · rw [hrecorded] at hmem
    obtain ⟨t, ht, rfl⟩ := List.mem_map.1 hmem
    exact hg.inline t ht
  · exact hrecords.made id (hids ▸ hmem)

/-- What drafts have recorded is recorded once they are taken in. -/
theorem mem_foldl_commit {x : SchemaId × String} : ∀ (drafts : List (SchemaId × Draft)) (a : Assembly),
    (x ∈ a.inlineNames ∨ ∃ p ∈ drafts, x ∈ p.2.inlineNames) →
      x ∈ (drafts.foldl (fun a (_, draft) => a.commit draft) a).inlineNames
  | [], a, h => by simpa using h
  | (id, draft) :: rest, a, h => by
    rw [List.foldl_cons]
    refine mem_foldl_commit rest (a.commit draft) ?_
    rcases h with h | ⟨p, hp, h⟩
    · exact .inl (List.mem_append_right _ h)
    · rcases List.mem_cons.1 hp with rfl | hp
      · exact .inl (List.mem_append_left _ (List.mem_reverse.2 h))
      · exact .inr ⟨p, hp, h⟩

/-- The types so far are made of different schemas, and those of no definition are recorded. -/
structure Assembly.Sourced (c : Context) (a : Assembly) : Prop where
  nodup : (a.model.types.map (·.source)).Nodup
  recorded : ∀ t ∈ a.model.types, c.graph.defines t.source = false → t.source ∈ a.inlineNames.map (·.1)

/-- The types of kept definitions are made of different schemas, if the definitions make types of different ones. -/
theorem assembled_sourced (hids : (g.definitions.map (·.id)).Nodup)
    (hapart : g.Apart fun id => id ∉ lost g target config) :
    (assembled g target config).Sourced (operationContext g target config) := by
  constructor
  case nodup =>
    rw [assembled_types, List.map_flatMap, List.nodup_flatMap]
    constructor
    · intro p hp
      obtain ⟨d, hd, node, hid, -, hsources, hnodup, hmade⟩ := kept_sources hp
      rw [hsources]
      refine List.nodup_cons.2 ⟨fun hmem => ?_, hnodup⟩
      exact absurd (kept_defined hp) (by simp [(hmade p.1 hmem).1])
    · have hkeys : (kept g target config).Pairwise fun p q => p.1 ≠ q.1 := List.pairwise_map.1 (kept_nodup hids)
      refine hkeys.imp_of_mem fun {p q} hp hq hne id hid hid' => ?_
      obtain ⟨d, hd, node, hpid, hnode, hsources, -, hmade⟩ := kept_sources hp
      obtain ⟨d', hd', node', hqid, hnode', hsources', -, hmade'⟩ := kept_sources hq
      have hid : id ∈ p.1 :: p.2.recorded := hsources ▸ hid
      have hid' : id ∈ q.1 :: q.2.recorded := hsources' ▸ hid'
      -- a definition is recorded nowhere, and other schemas are made into types by one definition alone
      rcases List.mem_cons.1 hid with rfl | hid
      · rcases List.mem_cons.1 hid' with heq | hid'
        · exact hne heq
        · exact absurd (kept_defined hp) (by simp [(hmade' _ hid').1])
      · rcases List.mem_cons.1 hid' with rfl | hid'
        · exact absurd (kept_defined hq) (by simp [(hmade _ hid).1])
        · refine hne (hpid ▸ hqid ▸ hapart d hd d' hd' node node' id hnode hnode' ?_ ?_ (hmade id hid).2
            (hmade' id hid').2)
          · exact hpid ▸ (kept_traced hp).1
          · exact hqid ▸ (kept_traced hq).1
  case recorded =>
    intro t ht hinline
    rw [assembled_types] at ht
    obtain ⟨p, hp, ht⟩ := List.mem_flatMap.1 ht
    obtain ⟨d, hd, node, hid, -, hsources, -⟩ := kept_sources hp
    have hmem : t.source ∈ p.1 :: p.2.recorded := hsources ▸ List.mem_map_of_mem ht
    have hinline : g.defines t.source = false := hinline
    rcases List.mem_cons.1 hmem with heq | hmem
    · exact absurd (kept_defined hp) (by simp [← heq, hinline])
    · obtain ⟨x, hx, heq⟩ := List.mem_map.1 hmem
      exact List.mem_map.2 ⟨x, mem_foldl_commit _ _ (.inr ⟨p, hp, hx⟩), heq⟩

/-- The types of an operation are made of schemas that are not recorded before it. -/
theorem lowerOperations_sourced {c : Context} {base : Assembly} (hbase : base.Sourced c) (os : List Operation) :
    (lowerOperations c base os).Sourced c := by
  refine lowerOperations_run (I := fun _ a => a.Sourced c) ?_ os [] base hbase
  rintro before o a a' h (@⟨operation, draft, hrun⟩ | @⟨e, draft, hrun⟩)
  · obtain ⟨types, hg, -⟩ := (lowerOperation_lowers _ o (Draft.start a.registry) (by simp)).answer hrun
    obtain ⟨ids, hrecords⟩ := (lowerOperation_collects _ o (Draft.start a.registry)).answer hrun
    have htypes : draft.types = types := by simpa [Draft.start] using hg.types_eq
    have hinline : draft.inlineNames = draft.types.map fun t => (t.source, t.name) := by
      simpa [Draft.start, htypes] using hg.inlineNames_eq
    have hsources : draft.types.map (·.source) = ids := by
      have hrecorded : draft.recorded = ids := by simpa [Draft.recorded, Draft.start] using hrecords.recorded_eq
      rw [← hrecorded, Draft.recorded, hinline, List.map_map]
      rfl
    constructor
    case nodup =>
      rw [List.map_append, List.nodup_append, hsources]
      refine ⟨h.nodup, hrecords.nodup, ?_⟩
      rintro id hid id' hid' rfl
      obtain ⟨t, ht, rfl⟩ := List.mem_map.1 hid
      have hnew : c.graph.defines t.source = false := by
        obtain ⟨t', ht', heq⟩ := List.mem_map.1 (hsources ▸ hid')
        exact heq ▸ hg.inline t' (htypes ▸ ht')
      exact hrecords.unknown t.source hid' (h.recorded t ht hnew)
    case recorded =>
      intro t ht hnew
      rw [List.map_append, List.mem_append]
      rcases List.mem_append.1 ht with ht | ht
      · exact .inr (h.recorded t ht hnew)
      · refine .inl (List.mem_map.2 ⟨(t.source, t.name), ?_, rfl⟩)
        rw [List.mem_reverse, hinline]
        exact List.mem_map_of_mem ht
  · exact ⟨h.nodup, h.recorded⟩

/-- The types of a model are made of different schemas, if no two definitions that are generated make a type of schemas
with one identity. -/
theorem ofGraph_sources_nodup (hids : (g.definitions.map (·.id)).Nodup) (operations : List Operation)
    (hapart : g.Apart (Model.ofGraph g operations target config).Generates) :
    ((Model.ofGraph g operations target config).types.map (·.source)).Nodup := by
  have hkept : g.Apart fun id => id ∉ lost g target config := by
    intro d hd d' hd' node node' id hnode hnode' hl hl'
    exact hapart d hd d' hd' node node' id hnode hnode' ((generates_iff hids operations (List.mem_map_of_mem hd)).2 hl)
      ((generates_iff hids operations (List.mem_map_of_mem hd')).2 hl')
  rw [ofGraph_eq]
  exact (lowerOperations_sourced (assembled_sourced hids hkept) operations).nodup

end Model

end Lowering

end ContractBindings
