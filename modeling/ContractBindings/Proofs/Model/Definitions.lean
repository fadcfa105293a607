import ContractBindings.Proofs.Model.Growth
import ContractBindings.Proofs.Model.Spread

/-!
# Naming and lowering the definitions

Every definition with a canonical form gets a name of its own; one without fails (`nameDefinitions_names`). Then the
named definitions are lowered in order: each gets a draft or fails (`Drafts.Step`), and what every step keeps holds of
the drafts of a whole run (`lowerDefinitions_run`). So all named definitions have a draft or a diagnostic, never both
(`lowerDefinitions_accounts`), every draft and every failure comes from lowering a definition while some have failed
(`lowerDefinitions_traced`), and the names of all types in the drafts differ (`lowerDefinitions_fresh`).
-/

namespace ContractBindings

open Naming

namespace Lowering

/-! ## Names of the definitions -/

/-- The names that definitions are given on the way from one registry to another. -/
structure Names (r r' : Registry) (ds : List Definition) (names : List (SchemaId × String)) : Prop where
  keys : names.map (·.1) = (ds.filter (·.node.isOk)).map (·.id)
  registry_le : r.Le r'
  nodup : (names.map fun p => snakeCase p.2).Nodup
  claimed : ∀ p ∈ names, r.Between r' p.2
  capital : ∀ p ∈ names, Capitalized p.2

namespace Names

theorem nil (r : Registry) : Names r r [] [] where
  keys := rfl
  registry_le := .refl r
  nodup := List.nodup_nil
  claimed := by simp
  capital := by simp

theorem capitalized_definitionBase (id : SchemaId) (node : SchemaNode) : Capitalized (definitionBase id node) := by
  unfold definitionBase
  split
  · exact capitalized_pascalCaseOr _ ⟨'T', _, rfl, rfl⟩
  · exact capitalized_pascalCaseOr _ ⟨'T', _, rfl, rfl⟩

/-- A definition with a canonical form claims its name before those after it. -/
theorem cons {r r' : Registry} {ds : List Definition} {names : List (SchemaId × String)} {d : Definition}
    {node : SchemaNode} (hd : d.node = .ok node)
    (h : Names (r.claim (definitionBase d.id node)).2 r' ds names) :
    Names r r' (d :: ds) ((d.id, (r.claim (definitionBase d.id node)).1) :: names) where
  keys := by simp [hd, Except.isOk, Except.toBool, h.keys]
  registry_le := (r.le_claim _).trans h.registry_le
  nodup := by
    refine List.nodup_cons.2 ⟨fun hm => ?_, h.nodup⟩
    obtain ⟨p, hp, he⟩ := List.mem_map.1 hm
    exact (h.claimed p hp).1 (he ▸ (r.between_claim _).2)
  claimed := by
    intro p hp
    rcases List.mem_cons.1 hp with rfl | hp
    · exact (r.between_claim _).mono (.refl r) h.registry_le
    · exact (h.claimed p hp).mono (r.le_claim _) (.refl r')
  capital := by
    intro p hp
    rcases List.mem_cons.1 hp with rfl | hp
    · exact r.capitalized_claim (capitalized_definitionBase d.id node)
    · exact h.capital p hp

/-- A definition without a canonical form claims no name. -/
theorem skip {r r' : Registry} {ds : List Definition} {names : List (SchemaId × String)} {d : Definition}
    {e : SchemaError} (hd : d.node = .error e) (h : Names r r' ds names) : Names r r' (d :: ds) names :=
  { h with keys := by simp [hd, Except.isOk, Except.toBool, h.keys] }

end Names

/-- Naming definitions gives names to those with a canonical form; the others fail. -/
theorem nameDefinitions_names : ∀ (n : Lowering.Naming) (ds : List Definition),
    ∃ names bad diagnostics,
      (nameDefinitions n ds).names = n.names ++ names ∧
      (nameDefinitions n ds).failed = bad ++ n.failed ∧
      (nameDefinitions n ds).diagnostics = n.diagnostics ++ diagnostics ∧
      Names n.registry (nameDefinitions n ds).registry ds names ∧
      bad.reverse = (ds.filter (!·.node.isOk)).map (·.id) ∧ Reports diagnostics bad
  | n, [] => ⟨[], [], [], by simp [nameDefinitions], rfl, by simp [nameDefinitions], .nil _, rfl, rfl, by simp⟩
  | n, d :: ds => by
    rw [nameDefinitions]
    cases hd : d.node with
    | ok node =>
      obtain ⟨names, bad, diagnostics, hn, hf, hg, hnames, hbad, hreports⟩ := nameDefinitions_names
        { n with
          registry := (n.registry.claim (definitionBase d.id node)).2
          names := n.names ++ [(d.id, (n.registry.claim (definitionBase d.id node)).1)] } ds
      refine ⟨_ :: names, bad, diagnostics, ?_, hf, hg, hnames.cons hd, ?_, hreports⟩
      · rw [hn, List.append_assoc, List.singleton_append]
      · simpa [hd, Except.isOk, Except.toBool] using hbad
    | error e =>
      obtain ⟨names, bad, diagnostics, hn, hf, hg, hnames, hbad, hreports⟩ := nameDefinitions_names
        { n with
          failed := d.id :: n.failed
          diagnostics := n.diagnostics ++ [Diagnostic.ofSchemaError d.id.pointer e] } ds
      have hone : Reports [Diagnostic.ofSchemaError d.id.pointer e] [d.id] :=
        ⟨rfl, by simp [Diagnostic.ofSchemaError, Diagnostic.error, Diagnostic.isError]⟩
      refine ⟨names, bad ++ [d.id], _ :: diagnostics, hn, ?_, ?_, hnames.skip hd, ?_, hone.append hreports⟩
      · rw [hf, List.append_assoc, List.singleton_append]
      · rw [hg, List.append_assoc, List.singleton_append]
      · simpa [hd, Except.isOk, Except.toBool] using hbad

/-! ## Lowering in order -/

/-- The context of a definition while some definitions have failed. -/
def Context.about (c : Context) (failed : List SchemaId) (id : SchemaId) : Context :=
  { c with failed := failed, unit := id.pointer, owner := some id }

/-- The definition is lowered: it has a canonical form and a name. -/
def Context.lowers (c : Context) (d : Definition) : Bool := d.node.isOk && (c.names.lookup d.id).isSome

/-- A definition has a name, and lowering it from a registry while some definitions have failed ends as told. -/
structure Context.Lowered (c : Context) (d : Definition) (failed : List SchemaId) (r : Registry) (node : SchemaNode)
    (name : String) (answer : Except Diagnostic Unit) (draft : Draft) : Prop where
  node_eq : d.node = .ok node
  name_eq : c.names.lookup d.id = some name
  run_eq : ((lowerDefinition (c.about failed d.id) d.id name node).run).run (Draft.start r) = (answer, draft)

/-- What a definition does to the drafts: it is passed over, gets a draft, or fails. -/
inductive Drafts.Step (c : Context) (d : Definition) (s : Drafts) : Drafts → Prop
  | passed : c.lowers d = false → Step c d s s
  | drafted {node : SchemaNode} {name : String} {draft : Draft} :
    c.Lowered d s.failed s.registry node name (.ok ()) draft →
      Step c d s { s with registry := draft.registry, drafts := s.drafts ++ [(d.id, draft)] }
  | failed {node : SchemaNode} {name : String} {e : Diagnostic} {draft : Draft} :
    c.Lowered d s.failed s.registry node name (.error e) draft →
      Step c d s
        { s with registry := draft.registry, failed := d.id :: s.failed, diagnostics := s.diagnostics ++ [e] }

theorem lowerDefinitions_cons (c : Context) (s : Drafts) (d : Definition) (rest : List Definition) :
    ∃ s', Drafts.Step c d s s' ∧ lowerDefinitions c s (d :: rest) = lowerDefinitions c s' rest := by
  rw [lowerDefinitions]
  split
  · next node name hnode hname =>
    dsimp only
    rcases hrun : ((lowerDefinition (c.about s.failed d.id) d.id name node).run).run (Draft.start s.registry)
      with ⟨answer, draft⟩
    cases answer with
    | ok _ => exact ⟨_, .drafted ⟨hnode, hname, hrun⟩, by rw [Context.about] at hrun; rw [hrun]⟩
    | error e => exact ⟨_, .failed ⟨hnode, hname, hrun⟩, by rw [Context.about] at hrun; rw [hrun]⟩
  · next hno =>
    refine ⟨s, .passed ?_, rfl⟩
    cases hnode : d.node with
    | error e => simp [Context.lowers, hnode, Except.isOk, Except.toBool]
    | ok node =>
      cases hname : c.names.lookup d.id with
      | none => simp [Context.lowers, hname]
      | some name => exact absurd hname (hno node name hnode)

/-- What every step keeps, of the definitions lowered so far and the drafts, holds after all of them. -/
theorem lowerDefinitions_run {c : Context} {I : List Definition → Drafts → Prop}
    (step : ∀ before d s s', I before s → Drafts.Step c d s s' → I (before ++ [d]) s') :
    ∀ (ds before : List Definition) (s : Drafts), I before s → I (before ++ ds) (lowerDefinitions c s ds)
  | [], before, s, h => by simpa [lowerDefinitions] using h
  | d :: ds, before, s, h => by
    obtain ⟨s', hstep, heq⟩ := lowerDefinitions_cons c s d ds
    have := lowerDefinitions_run step ds (before ++ [d]) s' (step before d s s' h hstep)
    rwa [List.append_assoc, List.singleton_append, ← heq] at this

namespace Context.Lowered

variable {c : Context} {d : Definition} {failed : List SchemaId} {r : Registry} {node : SchemaNode} {name : String}
  {e : Diagnostic} {draft : Draft}

theorem lowers {answer : Except Diagnostic Unit} (h : c.Lowered d failed r node name answer draft) :
    c.lowers d = true := by
  simp [Context.lowers, h.node_eq, h.name_eq, Except.isOk, Except.toBool]

theorem capitalized {answer : Except Diagnostic Unit} (h : c.Lowered d failed r node name answer draft)
    (hc : ∀ p ∈ c.names, Capitalized p.2) : Capitalized name :=
  hc (d.id, name) (mem_of_lookup h.name_eq)

/-- A definition that gets a draft. -/
theorem defines (h : c.Lowered d failed r node name (.ok ()) draft) (hc : ∀ p ∈ c.names, Capitalized p.2) :
    Draft.Defines (c.about failed d.id) d.id name node r draft :=
  (lowerDefinition_ends (c.about failed d.id) d.id node r (h.capitalized hc)).answer h.run_eq

/-- A definition that fails. -/
theorem fails (h : c.Lowered d failed r node name (.error e) draft) (hc : ∀ p ∈ c.names, Capitalized p.2) :
    r.Le draft.registry ∧ e.isError = true ∧ e.unit = d.id.pointer :=
  (lowerDefinition_ends (c.about failed d.id) d.id node r (h.capitalized hc)).failure h.run_eq

end Context.Lowered

section Runs

variable {c : Context} {start : Drafts}

/-! ## Every definition once -/

/-- The definitions lowered so far have a draft or have failed, with an error about them. -/
structure Drafts.Accounts (c : Context) (start : Drafts) (before : List Definition) (s : Drafts) (bad : List SchemaId)
    (diagnostics : List Diagnostic) : Prop where
  failed_eq : s.failed = bad ++ start.failed
  diagnostics_eq : s.diagnostics = start.diagnostics ++ diagnostics
  reports : Reports diagnostics bad
  perm : (s.drafts.map (·.1) ++ bad).Perm (start.drafts.map (·.1) ++ (before.filter c.lowers).map (·.id))

/-- Lowering definitions accounts for each of them once. -/
theorem lowerDefinitions_accounts (hc : ∀ p ∈ c.names, Capitalized p.2) (start : Drafts) (ds : List Definition) :
    ∃ bad diagnostics, Drafts.Accounts c start ds (lowerDefinitions c start ds) bad diagnostics := by
  refine lowerDefinitions_run (I := fun before s => ∃ bad diagnostics, Drafts.Accounts c start before s bad diagnostics)
    ?_ ds [] start ⟨[], [], rfl, by simp, ⟨rfl, by simp⟩, by simp⟩
  rintro before d s s' ⟨bad, diagnostics, h⟩ (hno | @⟨node, name, draft, hl⟩ | @⟨node, name, e, draft, hl⟩)
  · exact ⟨bad, diagnostics, { h with perm := by simpa [hno] using h.perm }⟩
  · refine ⟨bad, diagnostics, { h with perm := ?_ }⟩
    have hmove : (s.drafts.map (·.1) ++ [d.id] ++ bad).Perm (s.drafts.map (·.1) ++ bad ++ [d.id]) := by
      rw [List.append_assoc, List.append_assoc]
      exact List.perm_append_comm.append_left _
    simpa [hl.lowers] using hmove.trans (h.perm.append_right [d.id])
  · obtain ⟨-, herror, hunit⟩ := hl.fails hc
    have hone : Reports [e] [d.id] := ⟨by simp [hunit], by simpa using herror⟩
    refine ⟨d.id :: bad, diagnostics ++ [e], by simp [h.failed_eq], by simp [h.diagnostics_eq],
      h.reports.append hone, ?_⟩
    have hmove : (s.drafts.map (·.1) ++ d.id :: bad).Perm (s.drafts.map (·.1) ++ bad ++ [d.id]) := by
      rw [List.append_assoc]
      exact (List.perm_append_singleton d.id bad).symm.append_left _
    simpa [hl.lowers] using hmove.trans (h.perm.append_right [d.id])

/-! ## Where drafts and failures come from -/

/-- Every draft and every failure comes from lowering a definition from a registry while some have failed. -/
structure Drafts.Traced (c : Context) (start : Drafts) (before : List Definition) (s : Drafts) : Prop where
  registry_le : start.registry.Le s.registry
  drafts : ∀ p ∈ s.drafts, ∃ d ∈ before, ∃ failed r node name, d.id = p.1 ∧ failed ⊆ s.failed ∧
    start.registry.Le r ∧ c.Lowered d failed r node name (.ok ()) p.2
  failures : ∀ id ∈ s.failed, id ∈ start.failed ∨ ∃ d ∈ before, ∃ failed r node name e draft, d.id = id ∧
    failed ⊆ s.failed ∧ c.Lowered d failed r node name (.error e) draft

theorem lowerDefinitions_traced (hc : ∀ p ∈ c.names, Capitalized p.2) (hstart : start.drafts = [])
    (ds : List Definition) : Drafts.Traced c start ds (lowerDefinitions c start ds) := by
  refine lowerDefinitions_run (I := Drafts.Traced c start) ?_ ds [] start
    ⟨.refl _, by simp [hstart], fun id hid => .inl hid⟩
  rintro before d s s' h (hno | @⟨node, name, draft, hl⟩ | @⟨node, name, e, draft, hl⟩)
  · refine ⟨h.registry_le, fun p hp => ?_, fun id hid => ?_⟩
    · obtain ⟨d', hd', hrest⟩ := h.drafts p hp
      exact ⟨d', List.mem_append_left _ hd', hrest⟩
    · rcases h.failures id hid with hid | ⟨d', hd', hrest⟩
      · exact .inl hid
      · exact .inr ⟨d', List.mem_append_left _ hd', hrest⟩
  · obtain ⟨body, types, hg, -, -⟩ := hl.defines hc
    refine ⟨h.registry_le.trans hg.registry_le, fun p hp => ?_, fun id hid => ?_⟩
    · rcases List.mem_append.mp hp with hp | hp
      · obtain ⟨d', hd', hrest⟩ := h.drafts p hp
        exact ⟨d', List.mem_append_left _ hd', hrest⟩
      · obtain rfl := List.mem_singleton.1 hp
        exact ⟨d, by simp, s.failed, s.registry, node, name, rfl, fun _ hx => hx, h.registry_le, hl⟩
    · rcases h.failures id hid with hid | ⟨d', hd', hrest⟩
      · exact .inl hid
      · exact .inr ⟨d', List.mem_append_left _ hd', hrest⟩
  · refine ⟨h.registry_le.trans (hl.fails hc).1, fun p hp => ?_, fun id hid => ?_⟩
    · obtain ⟨d', hd', failed, r, node', name', hid', hsub, hrest⟩ := h.drafts p hp
      exact ⟨d', List.mem_append_left _ hd', failed, r, node', name', hid',
        fun _ hx => List.mem_cons_of_mem _ (hsub hx), hrest⟩
    · rcases List.mem_cons.1 hid with rfl | hid
      · exact .inr ⟨d, by simp, s.failed, s.registry, node, name, e, draft, rfl,
          fun _ hx => List.mem_cons_of_mem _ hx, hl⟩
      · rcases h.failures id hid with hid | ⟨d', hd', failed, r, node', name', e', draft', hid', hsub, hrest⟩
        · exact .inl hid
        · exact .inr ⟨d', List.mem_append_left _ hd', failed, r, node', name', e', draft', hid',
            fun _ hx => List.mem_cons_of_mem _ (hsub hx), hrest⟩

/-! ## Names of the types inside definitions -/

/-- The types inside the definitions that have a draft. -/
def Drafts.inner (s : Drafts) : List TypeDef := s.drafts.flatMap fun p => p.2.types.tail

/-- Types inside definitions have names of their own, new where lowering started. -/
structure Drafts.Fresh (start s : Drafts) : Prop where
  nodup : (s.inner.map fun t => snakeCase t.name).Nodup
  claimed : ∀ t ∈ s.inner, Registry.Between start.registry s.registry t.name
  registry_le : start.registry.Le s.registry

theorem lowerDefinitions_fresh (hc : ∀ p ∈ c.names, Capitalized p.2) (hstart : start.drafts = [])
    (ds : List Definition) : Drafts.Fresh start (lowerDefinitions c start ds) := by
  refine lowerDefinitions_run (I := fun _ => Drafts.Fresh start) ?_ ds [] start
    ⟨by simp [Drafts.inner, hstart], by simp [Drafts.inner, hstart], .refl _⟩
  rintro before d s s' h (hno | @⟨node, name, draft, hl⟩ | @⟨node, name, e, draft, hl⟩)
  · exact h
  · obtain ⟨body, types, hg, htypes, -⟩ := hl.defines hc
    have hinner : Drafts.inner { s with registry := draft.registry, drafts := s.drafts ++ [(d.id, draft)] } =
        s.inner ++ types := by
      simp [Drafts.inner, htypes]
    refine ⟨?_, ?_, h.registry_le.trans hg.registry_le⟩
    · rw [hinner, List.map_append, List.nodup_append]
      refine ⟨h.nodup, hg.nodup, ?_⟩
      intro x hx y hy hxy
      obtain ⟨t, ht, rfl⟩ := List.mem_map.1 hx
      obtain ⟨t', ht', rfl⟩ := List.mem_map.1 hy
      exact (hg.claimed t' ht').1 (hxy ▸ (h.claimed t ht).2)
    · rw [hinner]
      intro t ht
      rcases List.mem_append.mp ht with ht | ht
      · exact (h.claimed t ht).mono (.refl _) hg.registry_le
      · exact (hg.claimed t ht).mono h.registry_le (.refl _)
  · have hle := (hl.fails hc).1
    exact ⟨h.nodup, fun t ht => (h.claimed t ht).mono (.refl _) hle, h.registry_le.trans hle⟩

end Runs

end Lowering

end ContractBindings
