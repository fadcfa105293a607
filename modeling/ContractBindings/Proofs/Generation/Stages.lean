import ContractBindings.Generation
import ContractBindings.Proofs.Operation.Extracted
import ContractBindings.Proofs.Reference.Resolved

/-!
# What the stages before the model give

A document that passes the stages before the model has a graph whose definitions are all finished, with identities that
differ and begin like pointers (`Slots.graph_ids`, `extraction_rooted`); every entry of its `paths` is an operation or
has an error (`extraction_spec`), under an identifier of its own in small letters
(`extraction_nodup`, `extraction_smallLettered`).
-/

namespace ContractBindings

theorem ok_of_toOption {x : Except ε α} {a : α} (h : x.toOption = some a) : x = .ok a := by
  cases x with
  | error e => cases h
  | ok b => exact congrArg Except.ok (Option.some.inj h)

theorem run_of_toOption {x : ExceptT ε (StateM σ) α} {s : σ} {a : α} (h : ((x.run).run s).1.toOption = some a) :
    ∃ s', (x.run).run s = (.ok a, s') := ⟨_, Prod.ext (ok_of_toOption h) rfl⟩

/-- The number of errors about a unit. -/
def errorsAbout (diagnostics : List Diagnostic) (unit : String) : Nat :=
  ((diagnostics.filter Diagnostic.isError).map (·.unit)).count unit

theorem errorsAbout_append (before after : List Diagnostic) (unit : String) :
    errorsAbout (before ++ after) unit = errorsAbout before unit + errorsAbout after unit := by
  simp [errorsAbout]

/-! ## Graphs of finished definitions -/

namespace Slots

variable {s : Slots}

theorem Grows.nodup_nil (h : Grows [] s) : (s.map (·.1)).Nodup := h.nodup List.nodup_nil

/-- After interpretation every definition is finished. -/
theorem Grows.isSome_of_mem (h : Grows [] s) {p : SchemaId × Option (Except SchemaError SchemaNode)} (hp : p ∈ s) :
    p.2.isSome = true := by
  have hlookup := lookup_of_mem h.nodup_nil hp
  cases hs : p.2 with
  | some _ => rfl
  | none =>
    rw [hs] at hlookup
    cases h.closed hlookup

theorem mem_graph {d : Definition} : d ∈ s.graph.definitions ↔ (d.id, some d.node) ∈ s := by
  rw [graph, List.mem_filterMap]
  constructor
  · rintro ⟨⟨id, slot⟩, hp, hd⟩
    cases slot with
    | none => cases hd
    | some node =>
      cases hd
      exact hp
  · exact fun h => ⟨_, h, rfl⟩

/-- The definitions of the graph are those that were opened. -/
theorem graph_ids (h : Grows [] s) : s.graph.definitions.map (·.id) = s.map (·.1) := by
  have hall : ∀ p ∈ s, p.2.isSome = true := fun p hp => h.isSome_of_mem hp
  clear h
  rw [graph]
  dsimp only
  induction s with
  | nil => rfl
  | cons p s ih =>
    obtain ⟨id, slot⟩ := p
    cases slot with
    | none => cases hall _ List.mem_cons_self
    | some node => simpa using ih fun q hq => hall q (List.mem_cons_of_mem _ hq)

/-- Definitions that are opened later come later in the graph. -/
theorem Grows.graph_isPrefix {s' : Slots} (h : s.Grows s') : s.graph.definitions <+: s'.graph.definitions :=
  h.isPrefix.filterMap _

theorem graph_nodup (h : Grows [] s) : (s.graph.definitions.map (·.id)).Nodup := graph_ids h ▸ h.nodup_nil

end Slots

namespace Interpretation

/-- Opening a component schema, unless its name cannot be a segment. -/
theorem component_lands {r : Resolver} (hr : r.Rooted) (key schema : Tree) : Lands default (match key.keyText? with
    | some name => define (visit r) (SchemaId.child ⟨"#/components/schemas"⟩ name) schema
    | none => pure ()) fun _ _ => True := by
  split
  · next name _ =>
    refine (define_lands (visit_lands hr) default schema ?_).elsewhere
    rw [SchemaId.child_toList]
    rfl
  · exact Lands.pure fun _ _ => trivial

theorem componentList_lands {r : Resolver} (hr : r.Rooted) :
    ∀ entries : Entries, Lands default (entries.forM fun (key, schema) =>
      match key.keyText? with
      | some name => define (visit r) (SchemaId.child ⟨"#/components/schemas"⟩ name) schema
      | none => pure ()) fun _ _ => True
  | [] => Lands.pure fun _ _ => trivial
  | p :: entries => Lands.bind (component_lands hr p.1 p.2) (fun _ _ => trivial) fun _ =>
      (componentList_lands hr entries).mono fun _ _ _ _ _ => trivial

/-- Opening the component schemas of a document. -/
theorem components_ends {r : Resolver} (hr : r.Rooted) (d : Document) :
    Ends (components r d) [] (fun _ s => Slots.Grows [] s ∧ s.Good) fun _ _ => True := by
  refine (componentList_lands hr (d.componentSchemas?.getD []) [] ?_).mono (fun _ s h => ⟨h.1, h.2.1⟩) fun _ _ _ => trivial
  exact fun _ k n hk => by cases hk

end Interpretation

namespace Generator

/-- Generation with the default choices. -/
def standard : Generator := ⟨.rust, {}, none⟩

/-- Generation that rejects fields without a shape. -/
def strict : Generator := ⟨.rust, { unknownFields := .reject }, none⟩

/-- A document that has a model, with what a view of it and of what was extracted shows. -/
structure Run (g : Generator) (d : Document) (view : Extraction → Model → α) where
  seen : α
  seen_eq : ((g.extraction d).toOption.bind fun e => (g.model e).toOption.map (view e)) = some seen

variable {g : Generator} {d : Document}

theorem Run.spec {view : Extraction → Model → α} (run : g.Run d view) :
    ∃ e m, g.extraction d = .ok e ∧ g.model e = .ok m ∧ view e m = run.seen := by
  obtain ⟨e, he, hrest⟩ := Option.bind_eq_some_iff.1 run.seen_eq
  obtain ⟨m, hm, hseen⟩ := Option.map_eq_some_iff.1 hrest
  exact ⟨e, m, ok_of_toOption he, ok_of_toOption hm, hseen⟩

/-- The resolver of a document finds the ends of its chains. -/
theorem resolver_faithful {r : Resolver} (h : g.resolver d = .ok r) :
    r.Faithful ∧ r.root = d.root ∧ r.bound = Reference.chainBound d.root := by
  have hf := Resolver.faithful_checkAll d.root
  unfold resolver at h
  cases hc : g.checkpoint .resolve with
  | error e =>
    rw [hc] at h
    cases h
  | ok _ =>
    rw [hc] at h
    dsimp only [bind, Except.bind] at h
    split at h
    · next hr =>
      rw [hr] at hf
      cases h
      exact hf
    · cases h

/-- The component definitions of a document are what opening them leaves. -/
theorem definitions_run {r : Resolver} {slots : Slots} (h : g.definitions r d = .ok slots) :
    (Interpretation.components r d).run.run [] = (.ok (), slots) := by
  unfold definitions at h
  cases hc : g.checkpoint .interpret with
  | error e =>
    rw [hc] at h
    cases h
  | ok _ =>
    rw [hc] at h
    dsimp only [bind, Except.bind] at h
    split at h
    · next slots' hrun =>
      cases h
      exact hrun
    · cases h

/-- The component definitions of a document. -/
theorem definitions_spec {r : Resolver} (hr : r.Rooted) {slots : Slots} (h : g.definitions r d = .ok slots) :
    Slots.Grows [] slots ∧ slots.Good := (Interpretation.components_ends hr d).answer (definitions_run h)

theorem definitions_orderly {r : Resolver} (hr : r.Rooted) {slots : Slots} (h : g.definitions r d = .ok slots) :
    slots.Orderly := by
  refine ⟨(definitions_spec hr h).2, ?_⟩
  exact ((Interpretation.components_closes r d [] fun hk => by cases hk).answer (definitions_run h)).1

/-- Extraction goes through the stages before it, and runs from the component definitions. -/
theorem extraction_run {e : Extraction} (h : g.extraction d = .ok e) : ∃ r slots, g.resolver d = .ok r ∧
    g.definitions r d = .ok slots ∧ ((Extraction.document r g.config.operationNaming d).run).run
      { Extraction.empty with slots := slots } = (.ok (), e) := by
  unfold extraction at h
  cases hresolver : g.resolver d with
  | error e =>
    rw [hresolver] at h
    cases h
  | ok r =>
    cases hslots : g.definitions r d with
    | error e =>
      rw [hresolver] at h
      dsimp only [bind, Except.bind] at h
      rw [hslots] at h
      cases h
    | ok slots =>
      rw [hresolver] at h
      dsimp only [bind, Except.bind] at h
      rw [hslots] at h
      dsimp only at h
      cases hc : g.checkpoint .extract with
      | error e =>
        rw [hc] at h
        cases h
      | ok _ =>
        rw [hc] at h
        rcases hrun : ((Extraction.document r g.config.operationNaming d).run).run
          { Extraction.empty with slots := slots } with ⟨answer, state⟩
        dsimp only [Extraction.run] at h
        rw [hrun] at h
        cases answer with
        | error failure => cases h
        | ok _ =>
          cases h
          exact ⟨r, slots, rfl, hslots, hrun⟩

/-- What comes of the stages of extraction. -/
theorem extraction_stages {e : Extraction} (h : g.extraction d = .ok e) : ∃ r slots, g.resolver d = .ok r ∧
    g.definitions r d = .ok slots ∧ e.Accounts ∧ slots.Grows e.slots ∧
      e.labels.map (·.1) = (d.operations.map g.config.operationNaming.identify).reverse := by
  obtain ⟨r, slots, hresolver, hslots, hrun⟩ := extraction_run h
  have hr : r.Rooted := (resolver_faithful hresolver).1.rooted
  have haccounts : Extraction.Accounts { Extraction.empty with slots := slots } :=
    ⟨definitions_orderly hr hslots, by simp [Extraction.empty], List.nodup_nil, by simp [Extraction.empty]⟩
  obtain ⟨ha, hs, hlabels⟩ := (Extraction.document_extracts hr g.config.operationNaming d _ haccounts).answer hrun
  exact ⟨r, slots, hresolver, hslots, ha, hs, by simpa [Extraction.empty] using hlabels⟩

/-- What extraction gives: finished definitions at their places, and an operation or an error for every entry of
`paths`. -/
theorem extraction_spec {e : Extraction} (h : g.extraction d = .ok e) :
    e.Accounts ∧ Slots.Grows [] e.slots ∧
      e.labels.map (·.1) = (d.operations.map g.config.operationNaming.identify).reverse := by
  obtain ⟨r, slots, hresolver, hslots, ha, hs, hlabels⟩ := extraction_stages h
  exact ⟨ha, (definitions_spec (resolver_faithful hresolver).1.rooted hslots).1.trans hs, hlabels⟩

/-- What the model of a document is. -/
theorem model_eq {e : Extraction} {m : Model} (h : g.model e = .ok m) :
    m = Model.ofGraph e.slots.graph e.operations g.target g.config := by
  unfold model at h
  cases hc : g.checkpoint .map with
  | error e =>
    rw [hc] at h
    cases h
  | ok _ =>
    rw [hc] at h
    cases h
    rfl

/-- The identifiers of operations are small names. -/
theorem extraction_smallLettered {e : Extraction} (h : g.extraction d = .ok e) :
    ∀ unit ∈ e.operations.map (·.id) ++ (e.diagnostics.filter Diagnostic.isError).map (·.unit), Naming.SmallLettered unit := by
  obtain ⟨ha, -, hlabels⟩ := extraction_spec h
  intro unit hunit
  have hmem := ha.perm.mem_iff.1 hunit
  rw [hlabels, List.mem_reverse] at hmem
  obtain ⟨entry, -, rfl⟩ := List.mem_map.1 hmem
  exact g.config.operationNaming.smallLettered_identify entry

/-- The identifiers of the entries of `paths` differ. -/
theorem extraction_nodup {e : Extraction} (h : g.extraction d = .ok e) :
    (d.operations.map g.config.operationNaming.identify).Nodup := by
  obtain ⟨ha, -, hlabels⟩ := extraction_spec h
  have hperm : (e.labels.map (·.1)).Perm (d.operations.map g.config.operationNaming.identify) := by
    rw [hlabels]
    exact List.reverse_perm _
  exact hperm.nodup_iff.1 ha.nodup

/-- The identities of definitions begin like pointers into the document. -/
theorem extraction_rooted {e : Extraction} (h : g.extraction d = .ok e) {definition : Definition}
    (hd : definition ∈ e.slots.graph.definitions) : definition.id.pointer.toList.head? = some '#' := by
  have hs := (extraction_spec h).2.1
  have hmem : definition.id ∈ e.slots.map (·.1) := List.mem_map_of_mem (f := (·.1)) (Slots.mem_graph.1 hd)
  exact (hs.rooted _ hmem).resolve_left (by simp)

end Generator

end ContractBindings
