import Mathlib.Data.List.Flatten
import ContractBindings.Proofs.Model.Stages

/-!
# Putting the model together

The drafts of the definitions that are kept go into the model (`assembled_types`), then the drafts of the operations
that can be lowered (`Assembly.Step`). An operation gets its place in the model or an error, never both
(`lowerOperations_accounts`), and through all of it the names of types differ and every use but those inside kept
definitions names a type of the model (`Assembly.Sound`).
-/

namespace ContractBindings

open Naming

namespace Lowering

/-! ## Drafts of definitions -/

/-- Taking in drafts in order. -/
theorem foldl_commit : ∀ (drafts : List (SchemaId × Draft)) (a : Assembly),
    (drafts.foldl (fun a (_, draft) => a.commit draft) a).registry = a.registry ∧
    (drafts.foldl (fun a (_, draft) => a.commit draft) a).model.types =
      a.model.types ++ drafts.flatMap (·.2.types) ∧
    (drafts.foldl (fun a (_, draft) => a.commit draft) a).model.operations = a.model.operations ∧
    (drafts.foldl (fun a (_, draft) => a.commit draft) a).model.diagnostics =
      a.model.diagnostics ++ drafts.flatMap (·.2.warnings) ∧
    ∀ x ∈ (drafts.foldl (fun a (_, draft) => a.commit draft) a).inlineNames,
      x ∈ a.inlineNames ∨ ∃ p ∈ drafts, x ∈ p.2.inlineNames
  | [], a => by simp
  | (id, draft) :: rest, a => by
    obtain ⟨hr, ht, ho, hd, hi⟩ := foldl_commit rest (a.commit draft)
    rw [List.foldl_cons]
    refine ⟨hr, by rw [ht]; simp [Assembly.commit], ho, by rw [hd]; simp [Assembly.commit], ?_⟩
    intro x hx
    rcases hi x hx with hx | ⟨p, hp, hx⟩
    · rcases List.mem_append.1 hx with hx | hx
      · exact .inr ⟨(id, draft), List.mem_cons_self, by simpa using hx⟩
      · exact .inl hx
    · exact .inr ⟨p, List.mem_cons_of_mem _ hp, hx⟩

section Kept

variable {g : SchemaGraph} {target : Target} {config : Config}

theorem assembled_types : (assembled g target config).model.types = (kept g target config).flatMap (·.2.types) := by
  obtain ⟨-, ht, -⟩ := foldl_commit (kept g target config)
    ⟨(drafted g target config).registry, [],
      ⟨[], [], (drafted g target config).diagnostics ++ (spreaded g target config).2⟩⟩
  rw [assembled, ht, List.nil_append]

/-- The draft of a kept definition: the type of the definition under its name, then the types inside it. -/
theorem kept_defines {p : SchemaId × Draft} (hp : p ∈ kept g target config) :
    ∃ d ∈ g.definitions, ∃ failed r node name, d.id = p.1 ∧ d.node = .ok node ∧
      (named g target).names.lookup p.1 = some name ∧ (named g target).registry.Le r ∧
      Draft.Defines ((context g target config).about failed p.1) p.1 name node r p.2 := by
  obtain ⟨-, d, hd, failed, r, node, name, hid, -, hle, hl⟩ := kept_traced hp
  have hdef := hl.defines capitalized_names
  rw [← hid]
  exact ⟨d, hd, failed, r, node, name, rfl, hl.node_eq, hl.name_eq, hle, hdef⟩

/-- A type of a kept definition is the definition's own or stands inside it. -/
theorem mem_kept_types {p : SchemaId × Draft} (hp : p ∈ kept g target config) {t : TypeDef} (ht : t ∈ p.2.types) :
    (t.source = p.1 ∧ (named g target).names.lookup p.1 = some t.name ∧ g.defines t.source = true) ∨
      (t ∈ (drafted g target config).inner ∧ g.defines t.source = false) := by
  obtain ⟨d, hd, failed, r, node, name, hid, hnode, hname, hle, body, types, hg, htypes, huses⟩ := kept_defines hp
  rw [htypes] at ht
  rcases List.mem_cons.1 ht with rfl | ht
  · refine .inl ⟨rfl, hname, ?_⟩
    rw [SchemaGraph.defines, SchemaGraph.get?, List.find?_isSome]
    exact ⟨d, hd, by simpa using hid⟩
  · refine .inr ⟨List.mem_flatMap.2 ⟨p, (List.mem_filter.1 hp).1, ?_⟩, hg.inline t ht⟩
    rw [htypes]
    exact ht

/-- The snake forms of the names of the types of kept definitions differ: those of definitions from each other, and from
those of the types inside, which were claimed later. -/
theorem kept_types_nodup (hids : (g.definitions.map (·.id)).Nodup) :
    (((kept g target config).flatMap (·.2.types)).map fun t => snakeCase t.name).Nodup := by
  have hfresh : Drafts.Fresh (start g target) (drafted g target config) :=
    lowerDefinitions_fresh capitalized_names rfl g.definitions
  let nameOf (id : SchemaId) : String := ((named g target).names.lookup id).getD ""
  have hsplit : ((kept g target config).flatMap (·.2.types)).map (fun t => snakeCase t.name) =
      (kept g target config).flatMap fun p => snakeCase (nameOf p.1) :: p.2.types.tail.map fun t => snakeCase t.name := by
    rw [List.map_flatMap]
    refine List.flatMap_congr fun p hp => ?_
    obtain ⟨d, -, failed, r, node, name, -, -, hname, -, body, types, -, htypes, -⟩ := kept_defines hp
    simp [htypes, nameOf, hname]
  have hinner : ((kept g target config).flatMap fun p => p.2.types.tail.map fun t => snakeCase t.name).Sublist
      ((drafted g target config).inner.map fun t => snakeCase t.name) := by
    rw [Drafts.inner, List.map_flatMap]
    exact List.filter_sublist.flatMap _
  have hnames (p : SchemaId × Draft) (hp : p ∈ kept g target config) :
      (named g target).names.lookup p.1 = some (nameOf p.1) := by
    obtain ⟨d, -, failed, r, node, name, -, -, hname, -⟩ := kept_defines hp
    simp [nameOf, hname]
  rw [hsplit, ← (List.map_append_flatMap_perm (kept g target config) (fun p => snakeCase (nameOf p.1)) _).nodup_iff,
    List.nodup_append]
  refine ⟨?_, hfresh.nodup.sublist hinner, ?_⟩
  · have hkeys : ((kept g target config).map (·.1)).Nodup := kept_nodup hids
    have := hkeys.map_on (f := fun id => snakeCase (nameOf id)) ?_
    · rwa [List.map_map] at this
    · intro x hx y hy hxy
      obtain ⟨p, hp, rfl⟩ := List.mem_map.1 hx
      obtain ⟨q, hq, rfl⟩ := List.mem_map.1 hy
      exact eq_of_lookup_names (hnames p hp) (hnames q hq) hxy
  · intro x hx y hy hxy
    obtain ⟨p, hp, rfl⟩ := List.mem_map.1 hx
    obtain ⟨t, ht, rfl⟩ := List.mem_map.1 (hinner.subset hy)
    have htaken := ((named_spec g target).1.claimed _ (mem_of_lookup (hnames p hp))).2
    exact (hfresh.claimed t ht).1 (hxy ▸ htaken)

end Kept

/-! ## Operations in order -/

/-- The context of an operation while some types inside others have names. -/
def Context.during (c : Context) (inlineNames : List (SchemaId × String)) (unit : String) : Context :=
  { c with inlineNames := inlineNames, unit := unit, owner := none }

/-- What an operation does to the model: it is added with the types in it, or fails. -/
inductive Assembly.Step (c : Context) (o : Operation) (a : Assembly) : Assembly → Prop
  | added {operation : OperationDef} {draft : Draft} :
    ((lowerOperation (c.during a.inlineNames o.id) o).run).run (Draft.start a.registry) = (.ok operation, draft) →
      Step c o a
        ⟨draft.registry, draft.inlineNames.reverse ++ a.inlineNames,
          ⟨a.model.types ++ draft.types, a.model.operations ++ [operation], a.model.diagnostics ++ draft.warnings⟩⟩
  | failed {e : Diagnostic} {draft : Draft} :
    ((lowerOperation (c.during a.inlineNames o.id) o).run).run (Draft.start a.registry) = (.error e, draft) →
      Step c o a
        ⟨draft.registry, a.inlineNames, ⟨a.model.types, a.model.operations, a.model.diagnostics ++ [e]⟩⟩

theorem lowerOperations_cons (c : Context) (a : Assembly) (o : Operation) (rest : List Operation) :
    ∃ a', Assembly.Step c o a a' ∧ lowerOperations c a (o :: rest) = lowerOperations c a' rest := by
  rw [lowerOperations]
  dsimp only
  rcases hrun : ((lowerOperation (c.during a.inlineNames o.id) o).run).run (Draft.start a.registry) with ⟨answer, draft⟩
  cases answer with
  | ok operation => exact ⟨_, .added hrun, by rw [Context.during] at hrun; rw [hrun]; rfl⟩
  | error e => exact ⟨_, .failed hrun, by rw [Context.during] at hrun; rw [hrun]⟩

/-- What every step keeps, of the operations lowered so far and the model, holds after all of them. -/
theorem lowerOperations_run {c : Context} {I : List Operation → Assembly → Prop}
    (step : ∀ before o a a', I before a → Assembly.Step c o a a' → I (before ++ [o]) a') :
    ∀ (os before : List Operation) (a : Assembly), I before a → I (before ++ os) (lowerOperations c a os)
  | [], before, a, h => by simpa [lowerOperations] using h
  | o :: os, before, a, h => by
    obtain ⟨a', hstep, heq⟩ := lowerOperations_cons c a o os
    have := lowerOperations_run step os (before ++ [o]) a' (step before o a a' h hstep)
    rwa [List.append_assoc, List.singleton_append, ← heq] at this

/-- An operation keeps its identifier. -/
theorem lowerOperation_id (c : Context) (o : Operation) (s : Draft) :
    Ends (lowerOperation c o) s (fun operation _ => operation.id = o.id) fun _ _ => True := by
  refine .after fun request _ => .after fun response _ => .after fun service _ => ?_
  refine .after fun (params, r) _ => .after fun body _ => .after fun responses _ => ?_
  exact ends_pure.2 rfl

section Operations

variable {c : Context} {base : Assembly}

/-- The operations lowered so far are in the model or failed, with an error about them; other diagnostics are warnings.
-/
structure Assembly.Accounts (base : Assembly) (before : List Operation) (a : Assembly) (bad : List String)
    (diagnostics : List Diagnostic) : Prop where
  diagnostics_eq : a.model.diagnostics = base.model.diagnostics ++ diagnostics
  errors : (diagnostics.filter Diagnostic.isError).map (·.unit) = bad
  perm : (a.model.operations.map (·.id) ++ bad).Perm (base.model.operations.map (·.id) ++ before.map (·.id))

/-- Lowering operations accounts for each of them once. -/
theorem lowerOperations_accounts (c : Context) (base : Assembly) (os : List Operation) :
    ∃ bad diagnostics, Assembly.Accounts base os (lowerOperations c base os) bad diagnostics := by
  refine lowerOperations_run (I := fun before a => ∃ bad diagnostics, Assembly.Accounts base before a bad diagnostics)
    ?_ os [] base ⟨[], [], by simp, rfl, by simp⟩
  rintro before o a a' ⟨bad, diagnostics, h⟩ (@⟨operation, draft, hrun⟩ | @⟨e, draft, hrun⟩)
  · obtain ⟨types, hg, -⟩ := (lowerOperation_lowers _ o (Draft.start a.registry) (by simp)).answer hrun
    have hid : operation.id = o.id := (lowerOperation_id _ o _).answer hrun
    obtain ⟨w, hw, hwarn⟩ := hg.warnings
    have hnone : draft.warnings.filter Diagnostic.isError = [] := by
      rw [hw, List.filter_eq_nil_iff]
      intro d hd
      simp [hwarn d (by simpa [Draft.start] using hd)]
    refine ⟨bad, diagnostics ++ draft.warnings, by simp [h.diagnostics_eq], ?_, ?_⟩
    · simp [hnone, h.errors]
    · have hmove : (a.model.operations.map (·.id) ++ [o.id] ++ bad).Perm
          (a.model.operations.map (·.id) ++ bad ++ [o.id]) := by
        rw [List.append_assoc, List.append_assoc]
        exact List.perm_append_comm.append_left _
      simpa [hid] using hmove.trans (h.perm.append_right [o.id])
  · obtain ⟨-, herror, hunit⟩ := (lowerOperation_lowers _ o (Draft.start a.registry) (by simp)).failure hrun
    refine ⟨bad ++ [o.id], diagnostics ++ [e], by simp [h.diagnostics_eq], ?_, ?_⟩
    · simp [herror, h.errors, hunit, Context.during]
    · rw [← List.append_assoc]
      simpa using h.perm.append_right [o.id]

/-- Names of types differ in their snake forms and are capitalized, those of types inside others are recorded, and uses
in operations name types of the model. The types that came with operations stand inside others and have new names. -/
structure Assembly.Sound (c : Context) (base a : Assembly) : Prop where
  registry_le : base.registry.Le a.registry
  nodup : (a.model.types.map fun t => snakeCase t.name).Nodup
  taken : ∀ t ∈ a.model.types, snakeCase t.name ∈ a.registry.taken
  capital : ∀ t ∈ a.model.types, Capitalized t.name
  recorded : ∀ n ∈ a.inlineNames.map (·.2), n ∈ a.model.types.map (·.name)
  types : ∃ added, a.model.types = base.model.types ++ added ∧
    ∀ t ∈ added, c.graph.defines t.source = false ∧ t.body.alias? = none ∧
      Registry.Between base.registry a.registry t.name ∧ ∀ n ∈ t.uses, n ∈ a.model.types.map (·.name)
  operations : ∀ o ∈ a.model.operations, ∀ n ∈ o.uses, n ∈ a.model.types.map (·.name)

/-- A name that is known after an operation is that of a type in the model with the operation's types. -/
theorem Known.mem_types {unit : String} {a : Assembly} {draft : Draft} {types : List TypeDef} {near : SchemaId → Prop}
    {n : String} (hk : Known (c.during a.inlineNames unit) near draft n)
    (hg : Draft.Grows (c.during a.inlineNames unit) near types (Draft.start a.registry) draft)
    (hdef : ∀ id name, c.names.lookup id = some name → id ∉ c.failed → name ∈ a.model.types.map (·.name))
    (hrec : ∀ n ∈ a.inlineNames.map (·.2), n ∈ a.model.types.map (·.name)) :
    n ∈ (a.model.types ++ draft.types).map (·.name) := by
  rw [List.map_append, List.mem_append]
  rcases hk with h | h | ⟨id, -, hname, hfailed⟩
  · right
    rw [hg.inlineNames_eq] at h
    rw [hg.types_eq]
    simpa [Draft.start] using h
  · exact .inl (hrec n h)
  · exact .inl (hdef id n hname hfailed)

namespace Assembly.Sound

variable {o : Operation} {a : Assembly} {draft : Draft}

/-- A definition that can be used is a type of the model from the start. -/
theorem defined (h : Assembly.Sound c base a) {name : String}
    (hname : name ∈ base.model.types.map (·.name)) : name ∈ a.model.types.map (·.name) := by
  obtain ⟨added, hadded, -⟩ := h.types
  rw [hadded, List.map_append]
  exact List.mem_append_left _ hname

/-- An operation adds types whose names were claimed after those of the model, and uses what is known. -/
theorem added (h : Assembly.Sound c base a)
    (hdef : ∀ id name, c.names.lookup id = some name → id ∉ c.failed → name ∈ base.model.types.map (·.name))
    {operation : OperationDef}
    (hrun : ((lowerOperation (c.during a.inlineNames o.id) o).run).run (Draft.start a.registry) = (.ok operation, draft)) :
    Assembly.Sound c base ⟨draft.registry, draft.inlineNames.reverse ++ a.inlineNames,
      ⟨a.model.types ++ draft.types, a.model.operations ++ [operation], a.model.diagnostics ++ draft.warnings⟩⟩ := by
  obtain ⟨types, hg, huses⟩ := (lowerOperation_lowers _ o (Draft.start a.registry) (by simp)).answer hrun
  obtain ⟨added, hadded, hnew⟩ := h.types
  have htypes : draft.types = types := by simpa [Draft.start] using hg.types_eq
  have hknown : ∀ n, Known (c.during a.inlineNames o.id) (fun _ => True) draft n →
      n ∈ (a.model.types ++ draft.types).map (·.name) := fun n hk =>
    hk.mem_types hg (fun id name hname hfailed => h.defined (hdef id name hname hfailed)) h.recorded
  have hgrow : ∀ n ∈ a.model.types.map (·.name), n ∈ (a.model.types ++ draft.types).map (·.name) := by
    intro n hn
    rw [List.map_append]
    exact List.mem_append_left _ hn
  constructor
  case registry_le => exact h.registry_le.trans hg.registry_le
  case nodup =>
    rw [List.map_append, List.nodup_append]
    refine ⟨h.nodup, htypes ▸ hg.nodup, ?_⟩
    intro x hx y hy hxy
    obtain ⟨t, ht, rfl⟩ := List.mem_map.1 hx
    obtain ⟨t', ht', rfl⟩ := List.mem_map.1 hy
    exact (hg.claimed t' (htypes ▸ ht')).1 (hxy ▸ h.taken t ht)
  case taken =>
    refine List.forall_mem_append.2 ⟨fun t ht => hg.registry_le (h.taken t ht), fun t ht => ?_⟩
    exact (hg.claimed t (htypes ▸ ht)).2
  case capital => exact List.forall_mem_append.2 ⟨h.capital, htypes ▸ hg.capital⟩
  case recorded =>
    intro n hn
    rw [List.map_append, List.mem_append] at hn
    rcases hn with hn | hn
    · exact hknown n (.inl (by simpa using hn))
    · exact hgrow n (h.recorded n hn)
  case types =>
    refine ⟨added ++ draft.types, by simp [hadded], List.forall_mem_append.2 ⟨fun t ht => ?_, fun t ht => ?_⟩⟩
    · obtain ⟨hinline, hnone, hclaimed, huse⟩ := hnew t ht
      exact ⟨hinline, hnone, hclaimed.mono (.refl _) hg.registry_le, fun n hn => hgrow n (huse n hn)⟩
    · rw [htypes] at ht
      exact ⟨hg.inline t ht, hg.composite t ht, (hg.claimed t ht).mono h.registry_le (.refl _),
        fun n hn => hknown n (hg.uses t ht n hn)⟩
  case operations =>
    refine List.forall_mem_append.2 ⟨fun o' ho' n hn => hgrow n (h.operations o' ho' n hn), ?_⟩
    exact List.forall_mem_singleton.2 fun n hn => hknown n (huses n hn)

/-- An operation that fails leaves its claims in the registry, and the types as they are. -/
theorem failed (h : Assembly.Sound c base a) {e : Diagnostic}
    (hrun : ((lowerOperation (c.during a.inlineNames o.id) o).run).run (Draft.start a.registry) = (.error e, draft)) :
    Assembly.Sound c base
      ⟨draft.registry, a.inlineNames, ⟨a.model.types, a.model.operations, a.model.diagnostics ++ [e]⟩⟩ := by
  obtain ⟨hle, -⟩ := (lowerOperation_lowers _ o (Draft.start a.registry) (by simp)).failure hrun
  obtain ⟨added, hadded, hnew⟩ := h.types
  exact { h with
    registry_le := h.registry_le.trans hle
    taken := fun t ht => hle (h.taken t ht)
    types := by
      refine ⟨added, hadded, fun t ht => ?_⟩
      obtain ⟨hinline, hnone, hclaimed, huse⟩ := hnew t ht
      exact ⟨hinline, hnone, hclaimed.mono (.refl _) hle, huse⟩ }

end Assembly.Sound

/-- Lowering operations keeps names and uses sound. -/
theorem lowerOperations_sound (hbase : Assembly.Sound c base base)
    (hdef : ∀ id name, c.names.lookup id = some name → id ∉ c.failed → name ∈ base.model.types.map (·.name))
    (os : List Operation) : Assembly.Sound c base (lowerOperations c base os) := by
  refine lowerOperations_run (I := fun _ => Assembly.Sound c base) ?_ os [] base hbase
  rintro before o a a' h (@⟨operation, draft, hrun⟩ | @⟨e, draft, hrun⟩)
  · exact h.added hdef hrun
  · exact h.failed hrun

end Operations

end Lowering

end ContractBindings
