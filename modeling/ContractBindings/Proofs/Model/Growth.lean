import ContractBindings.Model.OfGraph
import ContractBindings.Proofs.Ending
import ContractBindings.Proofs.Lookup
import ContractBindings.Proofs.Naming.Capital
import ContractBindings.Proofs.Naming.Fresh
import ContractBindings.Proofs.Schema.Inside

/-!
# What lowering adds to a draft

Lowering a schema adds types to the draft, each under a name claimed on the way, and records that name for the identity
of the type's schema; no type made on the way is one of a definition (`Draft.Grows`). The names of types that the
descriptors use are known: they were recorded here or before, or a definition was given them, one that can be generated
and that the schema refers to or holds a node of (`Known`). Failures are about the unit being lowered. All of this is
one property of computations (`Lowers`), kept by sequencing; `lower_lowers` says that lowering a schema has it, by
induction on the nodes in it: each function has it if the nodes that it lowers do (`Lowers.Nodes`).

Here two functions are opened for all such inductions: a node is known in one of four ways (`known?_as`), and a node that
becomes a type is named before what stands in it is lowered (`ends_defineInline`).
-/

namespace ContractBindings

/-! ## The types that a type uses -/

/-- The descriptors in the body of a type. -/
def TypeBody.descriptors : TypeBody → List TypeDescriptor
  | .struct fields additional => fields.map (·.type) ++ additional.toList.map (·.type)
  | .union variants _ => variants.map (·.type)
  | .composite parts => parts.map (·.type)
  | .alias type => [type]
  | _ => []

/-- The names of types that a body uses. -/
def TypeBody.uses (b : TypeBody) : List String := b.descriptors.flatMap TypeDescriptor.names

theorem uses_struct (fields : List Field) (additional : Option Field) :
    TypeBody.uses (.struct fields additional) =
      fields.flatMap (·.type.names) ++ additional.toList.flatMap (·.type.names) := by
  rw [TypeBody.uses, TypeBody.descriptors, List.flatMap_append, List.flatMap_map, List.flatMap_map]

/-- The descriptor that a type is another name for. -/
def TypeBody.alias? : TypeBody → Option TypeDescriptor
  | .alias type => some type
  | _ => none

/-- The names of types that a type uses. -/
def TypeDef.uses (t : TypeDef) : List String := t.body.uses

/-- The descriptors of an operation. -/
def OperationDef.descriptors (o : OperationDef) : List TypeDescriptor :=
  o.params.map (·.type) ++ o.body.toList.map (·.type) ++ o.responses.map (·.type)

/-- The names of types that an operation uses. -/
def OperationDef.uses (o : OperationDef) : List String := o.descriptors.flatMap TypeDescriptor.names

/-! ## The definitions that a schema mentions -/

/-- A shape refers to a definition or holds a node with its identity. -/
def Shape.Mentions (s : Shape) (id : SchemaId) : Prop := id ∈ s.references ∨ ∃ m, s.Holds m ∧ m.id = id

/-- A node has the identity of a definition, or its shape mentions the definition. -/
def SchemaNode.Mentions (n : SchemaNode) (id : SchemaId) : Prop := n.id = id ∨ n.shape.Mentions id

theorem Shape.Mentions.of_child {s : Shape} {m : SchemaNode} {id : SchemaId} (hm : m ∈ s.children)
    (h : m.Mentions id) : s.Mentions id := by
  rcases h with h | h | ⟨k, hk, h⟩
  · exact .inr ⟨m, .child hm, h⟩
  · exact .inl (s.mem_references.2 (.inr ⟨m, hm, by rwa [SchemaNode.references_eq]⟩))
  · exact .inr ⟨k, .deeper hm hk, h⟩

open Naming

namespace Lowering

/-! ## Growth of a draft -/

/-- A name of a type that a descriptor may use: recorded in this draft or before, or given to a definition that can be
generated and is among those `near`. -/
def Known (c : Context) (near : SchemaId → Prop) (s : Draft) (name : String) : Prop :=
  name ∈ s.inlineNames.map (·.2) ∨ name ∈ c.inlineNames.map (·.2) ∨
    ∃ id, near id ∧ c.names.lookup id = some name ∧ id ∉ c.failed

/-- The second draft is the first with some types under new names, which differ in their snake forms and are recorded.
-/
structure Draft.Adds (types : List TypeDef) (s s' : Draft) : Prop where
  types_eq : s'.types = s.types ++ types
  inlineNames_eq : s'.inlineNames = s.inlineNames ++ types.map fun t => (t.source, t.name)
  registry_le : s.registry.Le s'.registry
  nodup : (types.map fun t => snakeCase t.name).Nodup
  claimed : ∀ t ∈ types, Registry.Between s.registry s'.registry t.name

/-- The types that are added are made of what stands inside a schema, and use names that are known. -/
structure Draft.Grows (c : Context) (near : SchemaId → Prop) (types : List TypeDef) (s s' : Draft) : Prop
    extends Draft.Adds types s s' where
  capital : ∀ t ∈ types, Capitalized t.name
  inline : ∀ t ∈ types, c.graph.defines t.source = false
  composite : ∀ t ∈ types, t.body.alias? = none
  uses : ∀ t ∈ types, ∀ name ∈ t.uses, Known c near s' name
  warnings : ∃ w, s'.warnings = s.warnings ++ w ∧ ∀ d ∈ w, d.isError = false

variable {c : Context} {near near' : SchemaId → Prop} {s s' s'' : Draft} {types types' : List TypeDef}

theorem Known.mono {name : String} (h : Known c near s name) (hn : ∀ id, near id → near' id)
    (hs : s.inlineNames ⊆ s'.inlineNames) : Known c near' s' name := by
  rcases h with h | h | ⟨id, hid, h⟩
  · exact .inl (List.map_subset _ hs h)
  · exact .inr (.inl h)
  · exact .inr (.inr ⟨id, hn id hid, h⟩)

namespace Draft.Adds

theorem inlineNames_subset (h : Draft.Adds types s s') : s.inlineNames ⊆ s'.inlineNames := by
  rw [h.inlineNames_eq]
  exact List.subset_append_left _ _

theorem refl (s : Draft) : Draft.Adds [] s s where
  types_eq := by simp
  inlineNames_eq := by simp
  registry_le := Registry.Le.refl _
  nodup := List.nodup_nil
  claimed := by simp

/-- The names of two growths in a row differ: the forms of the later are not taken where those of the earlier are. -/
theorem trans (h : Draft.Adds types s s') (h' : Draft.Adds types' s' s'') : Draft.Adds (types ++ types') s s'' where
  types_eq := by rw [h'.types_eq, h.types_eq, List.append_assoc]
  inlineNames_eq := by rw [h'.inlineNames_eq, h.inlineNames_eq, List.map_append, List.append_assoc]
  registry_le := h.registry_le.trans h'.registry_le
  nodup := by
    rw [List.map_append, List.nodup_append]
    refine ⟨h.nodup, h'.nodup, ?_⟩
    intro x hx y hy hxy
    obtain ⟨t, ht, rfl⟩ := List.mem_map.mp hx
    obtain ⟨t', ht', rfl⟩ := List.mem_map.mp hy
    exact (h'.claimed t' ht').1 (hxy ▸ (h.claimed t ht).2)
  claimed := by
    intro t ht
    rcases List.mem_append.mp ht with ht | ht
    · exact (h.claimed t ht).mono (Registry.Le.refl _) h'.registry_le
    · exact (h'.claimed t ht).mono h.registry_le (Registry.Le.refl _)

/-- A name may be claimed that no type is made under. -/
theorem claim (s : Draft) (base : String) : Draft.Adds [] s { s with registry := (s.registry.claim base).2 } :=
  { refl s with registry_le := s.registry.le_claim base, claimed := by simp }

/-- A type whose name is claimed and recorded before what it is made of is put in front of the types inside it. -/
theorem inline {t : TypeDef} {r : Registry} (hclaim : Registry.Between s.registry r t.name) (hle : s.registry.Le r)
    (h : Draft.Adds types { s with registry := r, inlineNames := s.inlineNames ++ [(t.source, t.name)] } s') :
    Draft.Adds (t :: types) s
      { s' with types := s'.types.take s.types.length ++ t :: s'.types.drop s.types.length } where
  types_eq := by simp [h.types_eq]
  inlineNames_eq := by simp [h.inlineNames_eq]
  registry_le := hle.trans h.registry_le
  nodup := by
    refine List.nodup_cons.2 ⟨fun hm => ?_, h.nodup⟩
    obtain ⟨u, hu, he⟩ := List.mem_map.1 hm
    exact (h.claimed u hu).1 (he ▸ hclaim.2)
  claimed := by
    intro u hu
    rcases List.mem_cons.1 hu with rfl | hu
    · exact hclaim.mono (Registry.Le.refl _) h.registry_le
    · exact (h.claimed u hu).mono hle (Registry.Le.refl _)

end Draft.Adds

namespace Draft.Grows

theorem known (h : Draft.Grows c near types s s') {name : String} (hk : Known c near s name) : Known c near s' name :=
  hk.mono (fun _ h => h) h.inlineNames_subset

theorem refl (c : Context) (near : SchemaId → Prop) (s : Draft) : Draft.Grows c near [] s s where
  toAdds := .refl s
  capital := by simp
  inline := by simp
  composite := by simp
  uses := by simp
  warnings := ⟨[], by simp⟩

theorem trans (h : Draft.Grows c near types s s') (h' : Draft.Grows c near types' s' s'') :
    Draft.Grows c near (types ++ types') s s'' where
  toAdds := h.toAdds.trans h'.toAdds
  capital := by
    intro t ht
    rcases List.mem_append.mp ht with ht | ht
    · exact h.capital t ht
    · exact h'.capital t ht
  inline := by
    intro t ht
    rcases List.mem_append.mp ht with ht | ht
    · exact h.inline t ht
    · exact h'.inline t ht
  composite := by
    intro t ht
    rcases List.mem_append.mp ht with ht | ht
    · exact h.composite t ht
    · exact h'.composite t ht
  uses := by
    intro t ht name hname
    rcases List.mem_append.mp ht with ht | ht
    · exact h'.known (h.uses t ht name hname)
    · exact h'.uses t ht name hname
  warnings := by
    obtain ⟨w, hw, hq⟩ := h.warnings
    obtain ⟨w', hw', hq'⟩ := h'.warnings
    refine ⟨w ++ w', by rw [hw', hw, List.append_assoc], ?_⟩
    intro d hd
    rcases List.mem_append.mp hd with hd | hd
    · exact hq d hd
    · exact hq' d hd

theorem mono (h : Draft.Grows c near types s s') (hn : ∀ id, near id → near' id) :
    Draft.Grows c near' types s s' :=
  { h with uses := fun t ht name hname => (h.uses t ht name hname).mono hn (List.Subset.refl _) }

end Draft.Grows

theorem capitalized_inlineBase (title : Option String) {hint : String} (h : Capitalized hint) :
    Capitalized (inlineBase title hint) := by
  cases title with
  | none => exact h
  | some title => exact capitalized_pascalCaseOr title ⟨'T', _, rfl, rfl⟩

/-! ## Looking a node up, and naming it -/

/-- What looking a node up amounts to from a draft: the whole of a payload that stands for a definition without a shape is
refused, a definition is used, and a node that has a name is used by it; nothing is known of other nodes. -/
inductive KnownAs (c : Context) (node : SchemaNode) (position : Position) (s : Draft) :
    Lower (Option TypeDescriptor) → Prop
  | refused {target : SchemaId} : position = .payload → c.config.unknownPayloads = .reject →
      shapelessDefinition c.graph node = some target → KnownAs c node position s (some <$> unknownShape c target position)
  | definition : c.graph.defines node.id = true →
      KnownAs c node position s (do return some (.mk (← useDefinition c node.id) node.nullable))
  | named {name : String} : c.graph.defines node.id = false →
      (node.id, name) ∈ c.inlineNames ∨ (node.id, name) ∈ s.inlineNames →
        KnownAs c node position s (pure (some (.mk (.named name false) node.nullable)))
  | new : c.graph.defines node.id = false → node.id ∉ c.inlineNames.map (·.1) → node.id ∉ s.inlineNames.map (·.1) →
      KnownAs c node position s (pure none)

theorem known?_as (c : Context) (node : SchemaNode) (position : Position) (s : Draft) :
    ∃ x, KnownAs c node position s x ∧ (known? c node position).run.run s = x.run.run s := by
  have hget : (get : Lower Draft).run.run s = (.ok s, s) := rfl
  unfold known?
  dsimp only
  split
  · next target hsome =>
    split at hsome
    · next hpolicy =>
      obtain ⟨hposition, hreject⟩ : position = .payload ∧ c.config.unknownPayloads = .reject := by simpa using hpolicy
      exact ⟨_, .refused hposition hreject hsome, rfl⟩
    · cases hsome
  · split
    · next hdefines => exact ⟨_, .definition hdefines, rfl⟩
    · next hdefines =>
      have hdefines : c.graph.defines node.id = false := by simpa using hdefines
      rw [run_bind_of_ok hget]
      split
      · next name hname =>
        rw [Option.orElse_eq_orElse, Option.orElse_eq_or, Option.or_eq_some_iff] at hname
        exact ⟨_, .named hdefines (hname.imp mem_of_lookup fun h => mem_of_lookup h.2), rfl⟩
      · next hnone =>
        rw [Option.orElse_eq_orElse, Option.orElse_eq_or, Option.or_eq_none_iff] at hnone
        exact ⟨_, .new hdefines (lookup_eq_none_iff.1 hnone.1) (lookup_eq_none_iff.1 hnone.2), rfl⟩

/-- A node that becomes a type is lowered with its name claimed and recorded, and its type is put where the types of the
draft ended before. -/
theorem ends_defineInline {id : SchemaId} {title doc : Option String} {hint : String} {body : String → Lower TypeBody}
    {s : Draft} {ok : TypeKind → Draft → Prop} {failed : Diagnostic → Draft → Prop} :
    Ends (defineInline id title doc hint body) s ok failed ↔
      Ends (body (s.registry.claim (inlineBase title hint)).1)
        { s with
          registry := (s.registry.claim (inlineBase title hint)).2
          inlineNames := s.inlineNames ++ [(id, (s.registry.claim (inlineBase title hint)).1)] }
        (fun b s' => ok (.named (s.registry.claim (inlineBase title hint)).1 false)
          { s' with
            types := s'.types.take s.types.length ++
              ⟨(s.registry.claim (inlineBase title hint)).1, id, doc, b⟩ :: s'.types.drop s.types.length })
        failed := by
  simp only [defineInline, claim, insertType, ends_bind, ends_modifyGet, ends_modify, ends_get, ends_pure]

/-! ## The body of a union -/

/-- The variants of a union have the types of its branches. -/
theorem types_unionVariants : ∀ (r : Registry) (types : List TypeDescriptor),
    (unionVariants r types).map (·.type) = types
  | _, [] => rfl
  | r, type :: types => by
    rw [unionVariants]
    simp [types_unionVariants _ types]

theorem type_mem_of_unionVariants {r : Registry} {types : List TypeDescriptor} {v : UnionVariant}
    (h : v ∈ unionVariants r types) : v.type ∈ types := by
  rw [← types_unionVariants r types]
  exact List.mem_map_of_mem h

/-- Tags leave the variants the types of branches. -/
theorem type_mem_of_tagged {r : Registry} {types : List TypeDescriptor} {branches : List SchemaNode} {d : Discriminator}
    {v : UnionVariant} (h : v ∈ ((unionVariants r types).zip branches).map fun (variant, branch) =>
      { variant with tag := some (branchTag d variant branch) }) : v.type ∈ types := by
  obtain ⟨⟨variant, branch⟩, hz, rfl⟩ := List.mem_map.1 h
  have hvariant : variant.type ∈ types := type_mem_of_unionVariants (List.of_mem_zip hz).1
  exact hvariant

/-- No branch is a container that the target cannot hold. -/
def Context.HoldsBranches (c : Context) (types : List TypeDescriptor) : Prop :=
  c.target.capability.containerBranches = false → ∀ type ∈ types, type.isContainer = false

/-- What the body of a union amounts to: an opaque value, or variants where the target can hold the branches, with tags if
no branch allows null and each is an object. -/
inductive UnionAs (c : Context) (branches : List SchemaNode) (discriminator : Option Discriminator)
    (types : List TypeDescriptor) : Lower TypeBody → Prop
  | downgraded (message : String) : UnionAs c branches discriminator types (do
      warn c .unionDowngraded message
      return .fallback (types.map TypeDescriptor.describe))
  | plain : c.HoldsBranches types → UnionAs c branches discriminator types
      (pure (.union (unionVariants (Registry.reserving ["Self"]) types) none))
  | tagged {d : Discriminator} : c.HoldsBranches types → discriminator = some d →
      (∀ branch ∈ branches, branch.nullable = false) → UnionAs c branches discriminator types
        (pure (.union (((unionVariants (Registry.reserving ["Self"]) types).zip branches).map fun (variant, branch) =>
          { variant with tag := some (branchTag d variant branch) }) (some d.property)))
  | dropped (message : String) : c.HoldsBranches types → UnionAs c branches discriminator types (do
      warn c .discriminatorDropped message
      return .union (unionVariants (Registry.reserving ["Self"]) types) none)

theorem unionBody_as (c : Context) (name : String) (branches : List SchemaNode) (discriminator : Option Discriminator)
    (types : List TypeDescriptor) :
    ∃ x, UnionAs c branches discriminator types x ∧ unionBody c name branches discriminator types = x := by
  unfold unionBody
  dsimp only
  split
  · exact ⟨_, .downgraded _, rfl⟩
  · next hnative =>
    have hholds : c.HoldsBranches types := by
      intro hbranch
      cases hpolicy : c.config.unionPolicy with
      | fallback => simp [hpolicy] at hnative
      | native => simpa [hpolicy, hbranch] using hnative
    split
    · exact ⟨_, .plain hholds, rfl⟩
    · split
      · next d hall =>
        refine ⟨_, .tagged hholds rfl fun branch hbranch => ?_, rfl⟩
        have hobject := List.all_eq_true.1 hall branch hbranch
        simp only [Bool.and_eq_true, Bool.not_eq_true'] at hobject
        exact hobject.1
      · exact ⟨_, .dropped _ hholds, rfl⟩

/-! ## Computations that lower -/

/-- A computation that makes a draft grow, given names that are known: those of its answer are known after it, and a
failure is an error about the unit. -/
def Lowers (c : Context) (near : SchemaId → Prop) (given : List String) (names : α → List String) (x : Lower α) :
    Prop :=
  ∀ s, (∀ n ∈ given, Known c near s n) →
    Ends x s (fun a s' => ∃ types, Draft.Grows c near types s s' ∧ ∀ n ∈ names a, Known c near s' n)
      (fun e s' => s.registry.Le s'.registry ∧ e.isError = true ∧ e.unit = c.unit)

namespace Lowers

variable {given : List String} {names : α → List String} {namesβ : β → List String} {x : Lower α}

theorem pure {a : α} (h : names a ⊆ given) : Lowers c near given names (Pure.pure a) :=
  fun s hs => ends_pure.2 ⟨[], .refl c near s, fun n hn => hs n (h hn)⟩

theorem throw {e : Diagnostic} (he : e.isError = true) (hu : e.unit = c.unit) :
    Lowers c near given names (MonadExcept.throw e) :=
  fun _ _ => ends_throw.2 ⟨Registry.Le.refl _, he, hu⟩

/-- Sequencing, where the answers of the first computation have a property. -/
theorem bind_of {f : α → Lower β} {Q : α → Prop} (hx : Lowers c near given names x)
    (hq : ∀ s, Ends x s (fun a _ => Q a) fun _ _ => True)
    (hf : ∀ a, Q a → Lowers c near (given ++ names a) namesβ (f a)) : Lowers c near given namesβ (x >>= f) := by
  intro s hs
  refine ends_bind.2 (((hx s hs).and (hq s)).mono ?_ fun _ _ h => h.1)
  rintro a s' ⟨⟨types, hg, ha⟩, hqa⟩
  have hs' : ∀ n ∈ given ++ names a, Known c near s' n := by
    intro n hn
    rcases List.mem_append.mp hn with hn | hn
    · exact hg.known (hs n hn)
    · exact ha n hn
  refine (hf a hqa s' hs').mono ?_ ?_
  · rintro b s'' ⟨types', hg', hb⟩
    exact ⟨types ++ types', hg.trans hg', hb⟩
  · rintro e s'' ⟨hle, he⟩
    exact ⟨hg.registry_le.trans hle, he⟩

theorem bind {f : α → Lower β} (hx : Lowers c near given names x)
    (hf : ∀ a, Lowers c near (given ++ names a) namesβ (f a)) : Lowers c near given namesβ (x >>= f) :=
  bind_of (Q := fun _ => True) hx (fun _ => Ends.trivial) fun a _ => hf a

/-- What needs no names to be known also runs among more definitions, with any names known. -/
theorem mono (hx : Lowers c near' [] names x) (hn : ∀ id, near' id → near id) : Lowers c near given names x := by
  intro s _
  refine (hx s (by simp)).mono ?_ fun _ _ h => h
  rintro a s' ⟨types, hg, ha⟩
  exact ⟨types, hg.mono hn, fun n hm => (ha n hm).mono hn (List.Subset.refl _)⟩

theorem map {f : α → β} (hx : Lowers c near given names x) (hf : ∀ a, namesβ (f a) ⊆ names a) :
    Lowers c near given namesβ (f <$> x) := by
  intro s hs
  refine ends_map.2 ((hx s hs).mono ?_ fun _ _ h => h)
  rintro a s' ⟨types, hg, ha⟩
  exact ⟨types, hg, fun n hn => ha n (hf a hn)⟩

theorem warn (code : DiagnosticCode) (message : String) :
    Lowers c near given (fun _ => []) (Lowering.warn c code message) := by
  intro s _
  refine ends_modify.2 ⟨[], { Draft.Grows.refl c near s with warnings := ⟨[_], rfl, ?_⟩ }, by simp⟩
  intro d hd
  rw [List.mem_singleton.1 hd]
  rfl

/-- A definition that is used is among those `near` and can be generated. -/
theorem useDefinition {target : SchemaId} (hn : near target) :
    Lowers c near given TypeDescriptor.namesOfKind (Lowering.useDefinition c target) := by
  unfold Lowering.useDefinition
  cases hl : c.names.lookup target with
  | none => exact throw rfl rfl
  | some name =>
    by_cases hf : c.failed.contains target
    · simp only [hf, ↓reduceIte]
      exact throw rfl rfl
    · simp only [hf]
      intro s _
      refine ends_pure.2 ⟨[], .refl c near s, fun n hm => .inr (.inr ⟨target, hn, ?_, by simpa using hf⟩)⟩
      rw [TypeDescriptor.namesOfKind, List.mem_singleton] at hm
      rw [hm, hl]

theorem unknownShape (id : SchemaId) (position : Position) :
    Lowers c near given TypeDescriptor.names (Lowering.unknownShape c id position) := by
  unfold Lowering.unknownShape
  dsimp only
  split
  · exact throw rfl rfl
  · exact bind (warn _ _) fun _ => pure (List.nil_subset _)

theorem contained {inner : TypeDescriptor} (id : SchemaId) (hi : inner.names ⊆ given) :
    Lowers c near given TypeDescriptor.names (Lowering.contained c inner id) := by
  unfold Lowering.contained
  split
  · exact bind (warn _ _) fun _ => pure (List.nil_subset _)
  · exact pure hi

theorem unionBody {name : String} {branches : List SchemaNode} {discriminator : Option Discriminator}
    {types : List TypeDescriptor} (ht : types.flatMap TypeDescriptor.names ⊆ given) :
    Lowers c near given TypeBody.uses (Lowering.unionBody c name branches discriminator types) := by
  have hunion {variants : List UnionVariant} {property : Option String} (h : ∀ v ∈ variants, v.type ∈ types) :
      TypeBody.uses (.union variants property) ⊆ types.flatMap TypeDescriptor.names := by
    intro n hn
    simp only [TypeBody.uses, TypeBody.descriptors, List.flatMap_map, List.mem_flatMap] at hn ⊢
    obtain ⟨v, hv, hn⟩ := hn
    exact ⟨v.type, h v hv, hn⟩
  obtain ⟨x, hx, hbody⟩ := unionBody_as c name branches discriminator types
  rw [hbody]
  cases hx with
  | downgraded _ => exact bind (warn _ _) fun _ => pure (List.nil_subset _)
  | plain _ => exact pure (List.Subset.trans (hunion fun _ => type_mem_of_unionVariants) ht)
  | tagged _ _ _ => exact pure (List.Subset.trans (hunion fun _ => type_mem_of_tagged) ht)
  | dropped _ _ =>
    refine bind (warn _ _) fun _ => pure (List.Subset.trans (hunion fun _ => type_mem_of_unionVariants) ?_)
    exact List.Subset.trans ht (List.subset_append_left _ _)

/-- What is known of a node without looking inside uses the node's identity or its target, or a recorded name. -/
theorem known? {node : SchemaNode} (position : Position) (hn : ∀ id, node.Mentions id → near id) :
    Lowers c near given (fun type => type.elim [] TypeDescriptor.names) (Lowering.known? c node position) := by
  intro s hs
  obtain ⟨x, hx, hrun⟩ := known?_as c node position s
  refine .of_run_eq hrun ?_
  cases hx with
  | refused _ _ _ =>
    refine map (f := some) (unknownShape _ _) ?_ s hs
    exact fun _ => List.Subset.refl _
  | definition _ =>
    refine bind (useDefinition (hn _ (.inl rfl))) (fun kind => pure ?_) s hs
    simp [TypeDescriptor.names]
  | @named name _ hname =>
    refine ends_pure.2 ⟨[], .refl c near s, fun n hm => ?_⟩
    obtain rfl : n = name := by simpa [TypeDescriptor.names, TypeDescriptor.namesOfKind] using hm
    rcases hname with h | h
    · exact .inr (.inl (List.mem_map_of_mem h))
    · exact .inl (List.mem_map_of_mem h)
  | new _ _ _ => exact ends_pure.2 ⟨[], .refl c near s, by simp⟩

/-- A node that has no name yet and stands for no definition. -/
theorem known?_none {node : SchemaNode} {position : Position} :
    Ends (Lowering.known? c node position) s (fun type _ => type = none → c.graph.defines node.id = false)
      fun _ _ => True := by
  obtain ⟨x, hx, hrun⟩ := known?_as c node position s
  refine .of_run_eq hrun ?_
  cases hx with
  | refused _ _ _ => exact ends_map.2 (Ends.trivial.mono (by simp) (by simp))
  | definition _ => exact ends_bind.2 (Ends.trivial.mono (by simp) (by simp))
  | named hinline _ => exact ends_pure.2 nofun
  | new hinline _ _ => exact ends_pure.2 fun _ => hinline

/-- A node that becomes a type: its name is claimed before those of the types inside it, and its type stands before
theirs. -/
theorem defineInline {id : SchemaId} {title doc : Option String} {hint : String} {body : String → Lower TypeBody}
    (hid : c.graph.defines id = false) (hhint : Capitalized hint)
    (hbody : ∀ name, Capitalized name → Lowers c near [] TypeBody.uses (body name))
    (hcomposite : ∀ name s, Ends (body name) s (fun body _ => body.alias? = none) fun _ _ => True) :
    Lowers c near given TypeDescriptor.namesOfKind (Lowering.defineInline id title doc hint body) := by
  intro s _
  rw [ends_defineInline]
  have hcapital := s.registry.capitalized_claim (capitalized_inlineBase title hhint)
  have hclaim := s.registry.between_claim (inlineBase title hint)
  generalize hname : (s.registry.claim (inlineBase title hint)).1 = name at hclaim hcapital
  have hle := s.registry.le_claim (inlineBase title hint)
  generalize (s.registry.claim (inlineBase title hint)).2 = r at hclaim hle
  refine ((hbody name hcapital _ (by simp)).and (hcomposite name _)).mono ?_ fun e s' h => ⟨hle.trans h.1.1, h.1.2⟩
  rintro b s' ⟨⟨types, hg, hb⟩, hnone⟩
  have hrecorded : name ∈ s'.inlineNames.map (·.2) := by
    rw [hg.inlineNames_eq]
    simp
  refine ⟨⟨name, id, doc, b⟩ :: types, ?_, fun n hn => .inl ?_⟩
  · constructor
    case toAdds => exact .inline hclaim hle hg.toAdds
    case capital =>
      intro t ht
      rcases List.mem_cons.1 ht with rfl | ht
      · exact hcapital
      · exact hg.capital t ht
    case inline =>
      intro t ht
      rcases List.mem_cons.1 ht with rfl | ht
      · exact hid
      · exact hg.inline t ht
    case composite =>
      intro t ht
      rcases List.mem_cons.1 ht with rfl | ht
      · exact hnone
      · exact hg.composite t ht
    case uses =>
      intro t ht n hn
      rcases List.mem_cons.1 ht with rfl | ht
      · exact hb n hn
      · exact hg.uses t ht n hn
    case warnings => exact hg.warnings
  · rw [TypeDescriptor.namesOfKind, List.mem_singleton] at hn
    exact hn ▸ hrecorded

end Lowers

/-! ## Aliases -/

/-- What a shape becomes that becomes a type of its own is no alias. -/
theorem compose_alias (c : Context) (id : SchemaId) (name : String) {shape : Shape} (h : isComposite shape = true)
    (s : Draft) : Ends (compose c id name shape) s (fun body _ => body.alias? = none) fun _ _ => True := by
  cases shape with
  | object fields required additional =>
    rw [compose]
    refine .after fun p _ => .after fun value _ => ?_
    cases value with
    | some value => exact .after fun _ _ => ends_pure.2 rfl
    | none => exact ends_pure.2 rfl
  | enumeration values => exact ends_pure.2 rfl
  | union branches discriminator =>
    rw [compose]
    refine .after fun types s => ?_
    obtain ⟨x, hx, hbody⟩ := unionBody_as c name branches discriminator types
    rw [hbody]
    cases hx with
    | downgraded _ => exact .after fun _ _ => ends_pure.2 rfl
    | plain _ => exact ends_pure.2 rfl
    | tagged _ _ _ => exact ends_pure.2 rfl
    | dropped _ _ => exact .after fun _ _ => ends_pure.2 rfl
  | intersection parts =>
    rw [compose]
    exact .after fun _ _ => ends_pure.2 rfl
  | _ => simp [isComposite] at h

/-- The descriptor of a shape allows no null by itself, and names a type if the shape is a reference, that of the
target. -/
structure Context.Describes (c : Context) (shape : Shape) (type : TypeDescriptor) : Prop where
  nullable : type.nullable = false
  named : ∀ {name recursive}, type.kind = .named name recursive →
    ∃ t, shape = .reference t ∧ c.names.lookup t = some name
  reference : ∀ {t}, shape = .reference t →
    ∃ name recursive, type.kind = .named name recursive ∧ c.names.lookup t = some name

/-- A definition that has a name and has not failed is used by its name; else the unit is left out. -/
theorem useDefinition_ends (c : Context) (t : SchemaId) (s : Draft) :
    Ends (useDefinition c t) s (fun kind s' =>
      (∃ name recursive, kind = .named name recursive ∧ c.names.lookup t = some name) ∧ t ∉ c.failed ∧ s' = s)
      fun _ _ => ¬ ((c.names.lookup t).isSome = true ∧ t ∉ c.failed) := by
  unfold useDefinition
  cases hl : c.names.lookup t with
  | none => exact ends_throw.2 (by simp)
  | some name =>
    by_cases hf : c.failed.contains t
    · simp only [hf, ↓reduceIte]
      exact ends_throw.2 fun h => h.2 (by simpa using hf)
    · simp only [hf]
      exact ends_pure.2 ⟨⟨name, _, rfl, rfl⟩, by simpa using hf, rfl⟩

theorem unknownShape_ends (c : Context) (id : SchemaId) (position : Position) (s : Draft) :
    Ends (unknownShape c id position) s (fun type _ => type = .ofKind .opaqueValue) fun _ _ => True := by
  unfold unknownShape
  dsimp only
  split
  · exact ends_throw.2 trivial
  · exact .after fun _ _ => ends_pure.2 rfl

theorem describe_describes (c : Context) (id : SchemaId) (hint : String) (position : Position) (shape : Shape)
    (s : Draft) : Ends (describe c id hint position shape) s (fun type _ => c.Describes shape type)
      fun _ _ => True := by
  have hplain {kind : TypeKind} (hk : ∀ name recursive, kind ≠ .named name recursive)
      (hr : ∀ t, shape ≠ .reference t) : c.Describes shape (.ofKind kind) :=
    ⟨rfl, fun h => absurd h (hk _ _), fun h => absurd h (hr _)⟩
  cases shape with
  | reference target =>
    rw [describe]
    refine ends_map.2 ((useDefinition_ends c target s).mono ?_ fun _ _ _ => trivial)
    rintro kind s' ⟨⟨name, recursive, rfl, hname⟩, -⟩
    constructor
    case nullable => rfl
    case named =>
      intro name' recursive' h
      cases h
      exact ⟨target, rfl, hname⟩
    case reference =>
      intro t h
      cases h
      exact ⟨name, recursive, rfl, hname⟩
  | primitive kind format => exact ends_pure.2 (hplain nofun nofun)
  | array items =>
    rw [describe]
    exact .after fun _ _ => .after fun _ _ => ends_pure.2 (hplain nofun nofun)
  | object fields required additional =>
    rw [describe]
    exact .after fun _ _ => .after fun _ _ => ends_pure.2 (hplain nofun nofun)
  | enumeration values =>
    rw [describe]
    exact .after fun _ _ => ends_pure.2 (hplain nofun nofun)
  | _ =>
    rw [describe]
    · refine (unknownShape_ends c id position s).mono ?_ fun _ _ h => h
      rintro type s' rfl
      exact hplain nofun nofun
    all_goals simp

/-- The body of the type that a definition becomes: an alias, unless the definition becomes a type of its own. -/
def Context.Embodies (c : Context) (node : SchemaNode) (body : TypeBody) : Prop :=
  (isComposite node.shape = true ∧ body.alias? = none) ∨
    (isComposite node.shape = false ∧ ∃ type, c.Describes node.shape type ∧ body = .alias (type.orNull node.nullable))

/-! ## Lowering a schema -/

/-- Each node of a list makes the draft grow, among the definitions `near`, whatever the type is named after that it may
become. -/
def Lowers.Nodes (c : Context) (near : SchemaId → Prop) (nodes : List SchemaNode) : Prop :=
  ∀ n ∈ nodes, ∀ (given : List String) {hint : String}, Capitalized hint →
    Lowers c near given TypeDescriptor.names (lower c hint .nested n)

section Shapes

variable {c : Context} {near : SchemaId → Prop} {given : List String} {hint name : String}

theorem lowerOr_lowers (hhint : Capitalized hint) {absent : Lower TypeDescriptor}
    (habsent : Lowers c near given TypeDescriptor.names absent) : ∀ {n : Option SchemaNode},
    Lowers.Nodes c near n.toList → Lowers c near given TypeDescriptor.names (lowerOr c hint absent n)
  | some node, hn => hn node (by simp) given hhint
  | none, _ => habsent

theorem lowerOption_lowers (hhint : Capitalized hint) : ∀ {n : Option SchemaNode}, Lowers.Nodes c near n.toList →
    Lowers c near given (fun type => type.elim [] TypeDescriptor.names) (lowerOption c hint n)
  | some node, hn => (hn node (by simp) given hhint).map fun _ => List.Subset.refl _
  | none, _ => .pure (List.nil_subset _)

theorem lowerFields_lowers (required : List String) (hname : Capitalized name) :
    ∀ (given : List String) (r : Registry) {fields : List (String × SchemaNode)},
      Lowers.Nodes c near (fields.map (·.2)) →
        Lowers c near given (fun p => p.1.flatMap (·.type.names)) (lowerFields c name required r fields)
  | _, _, [], _ => .pure (List.nil_subset _)
  | given, r, (wire, node) :: rest, hn => by
    obtain ⟨hnode, hrest⟩ := List.forall_mem_cons.1 hn
    rw [lowerFields]
    refine Lowers.bind (hnode given (hname.append _)) fun type => ?_
    refine Lowers.bind (lowerFields_lowers required hname _ _ hrest) fun p => Lowers.pure ?_
    simp

theorem lowerBranches_lowers (hname : Capitalized name) :
    ∀ (given : List String) (number : Nat) {branches : List SchemaNode}, Lowers.Nodes c near branches →
      Lowers c near given (fun types => types.flatMap TypeDescriptor.names) (lowerBranches c name number branches)
  | _, _, [], _ => .pure (List.nil_subset _)
  | given, number, node :: rest, hn => by
    obtain ⟨hnode, hrest⟩ := List.forall_mem_cons.1 hn
    rw [lowerBranches]
    refine Lowers.bind (hnode given ((hname.append _).append _)) fun type => ?_
    refine Lowers.bind (lowerBranches_lowers hname _ _ hrest) fun types => Lowers.pure ?_
    simp

theorem lowerParts_lowers (hname : Capitalized name) :
    ∀ (given : List String) (number : Nat) (r : Registry) {parts : List SchemaNode}, Lowers.Nodes c near parts →
      Lowers c near given (fun fields => fields.flatMap (·.type.names)) (lowerParts c name number r parts)
  | _, _, _, [], _ => .pure (List.nil_subset _)
  | given, number, r, node :: rest, hn => by
    obtain ⟨hnode, hrest⟩ := List.forall_mem_cons.1 hn
    rw [lowerParts]
    refine Lowers.bind (hnode given ((hname.append _).append _)) fun type => ?_
    refine Lowers.bind (lowerParts_lowers hname _ _ _ hrest) fun fields => Lowers.pure ?_
    simp

/-- A shape that becomes no type of its own makes the draft grow by what its children do. -/
theorem describe_lowers (id : SchemaId) (position : Position) (hhint : Capitalized hint) {shape : Shape}
    (hchildren : Lowers.Nodes c near shape.children) (hnear : ∀ i, shape.Mentions i → near i) :
    Lowers c near given TypeDescriptor.names (describe c id hint position shape) := by
  cases shape with
  | primitive kind format => exact Lowers.pure (List.nil_subset _)
  | array items =>
    rw [describe]
    refine Lowers.bind (lowerOr_lowers (hhint.append _) (Lowers.unknownShape _ _) hchildren) fun item => ?_
    refine Lowers.bind (Lowers.contained id (List.subset_append_right _ _)) fun item => Lowers.pure ?_
    exact List.subset_append_right _ _
  | object fields required additional =>
    have hadditional : Lowers.Nodes c near additional.toList := fun m hm => hchildren m (List.mem_append_right _ hm)
    rw [describe]
    refine Lowers.bind (lowerOr_lowers (hhint.append _) (Lowers.unknownShape _ _) hadditional) fun value => ?_
    refine Lowers.bind (Lowers.contained id (List.subset_append_right _ _)) fun value => Lowers.pure ?_
    exact List.subset_append_right _ _
  | enumeration values =>
    rw [describe]
    exact Lowers.bind (Lowers.warn _ _) fun _ => Lowers.pure (List.nil_subset _)
  | reference target =>
    rw [describe]
    refine Lowers.map (Lowers.useDefinition (hnear _ (.inl ?_))) fun kind => List.Subset.refl _
    simp [Shape.references]
  | union branches discriminator => exact Lowers.unknownShape _ _
  | intersection parts => exact Lowers.unknownShape _ _
  | unknown => exact Lowers.unknownShape _ _

theorem names_additionalField (r : Registry) (value : TypeDescriptor) :
    (additionalField r value).type.names = value.names := by
  simp [additionalField, TypeDescriptor.ofKind, TypeDescriptor.names, TypeDescriptor.namesOfKind]

/-- A shape that becomes a type makes the draft grow by what its children do. -/
theorem compose_lowers (id : SchemaId) (hname : Capitalized name) {shape : Shape}
    (hchildren : Lowers.Nodes c near shape.children) :
    Lowers c near given TypeBody.uses (compose c id name shape) := by
  cases shape with
  | object fields required additional =>
    obtain ⟨hfields, hadditional⟩ := List.forall_mem_append.1 hchildren
    rw [compose]
    refine Lowers.bind (lowerFields_lowers required hname given _ hfields) fun p => ?_
    obtain ⟨fields, r⟩ := p
    refine Lowers.bind (lowerOption_lowers (hname.append _) hadditional) fun value => ?_
    cases value with
    | some value =>
      refine Lowers.bind (Lowers.contained id (List.subset_append_right _ _)) fun value => Lowers.pure ?_
      rw [uses_struct]
      intro n hn
      simp only [List.mem_append] at hn ⊢
      rcases hn with hn | hn
      · exact .inl (.inl (.inr hn))
      · exact .inr (by simpa [names_additionalField] using hn)
    | none =>
      refine Lowers.pure ?_
      rw [uses_struct]
      intro n hn
      simp only [List.mem_append] at hn ⊢
      rcases hn with hn | hn
      · exact .inl (.inr hn)
      · cases hn
  | enumeration values => exact Lowers.pure (List.nil_subset _)
  | union branches discriminator =>
    rw [compose]
    refine Lowers.bind (lowerBranches_lowers hname given 1 hchildren) fun types => ?_
    exact Lowers.unionBody (List.subset_append_right _ _)
  | intersection parts =>
    rw [compose]
    refine Lowers.bind (lowerParts_lowers hname given 1 _ hchildren) fun fields => Lowers.pure ?_
    simp [TypeBody.uses, TypeBody.descriptors, List.flatMap_map]
  | primitive kind format => exact Lowers.pure (List.nil_subset _)
  | array items => exact Lowers.pure (List.nil_subset _)
  | reference target => exact Lowers.pure (List.nil_subset _)
  | unknown => exact Lowers.pure (List.nil_subset _)

end Shapes

/-- Lowering a node makes the draft grow, among any definitions that hold those it mentions. -/
theorem lower_lowers (c : Context) (n : SchemaNode) {near : SchemaId → Prop} (hnear : ∀ i, n.Mentions i → near i)
    (given : List String) {hint : String} (position : Position) (hhint : Capitalized hint) :
    Lowers c near given TypeDescriptor.names (lower c hint position n) := by
  induction n using SchemaNode.inductionOnChildren generalizing near given hint position with
  | step n ih =>
    obtain ⟨id, title, description, nullable, shape⟩ := n
    have hshape : ∀ i, shape.Mentions i → near i := fun i h => hnear i (.inr h)
    have hchildren : Lowers.Nodes c near shape.children := by
      intro m hm given hint hhint
      exact ih m hm (fun i h => hshape i (.of_child hm h)) given .nested hhint
    rw [lower]
    refine Lowers.bind_of (Lowers.known? position hnear) (fun _ => Lowers.known?_none) fun type hnone => ?_
    cases type with
    | some type => exact Lowers.pure (by simp)
    | none =>
      dsimp only
      split
      · next hcomposite =>
        refine Lowers.bind (?_ : Lowers c _ _ TypeDescriptor.names _) fun type => Lowers.pure ?_
        · refine Lowers.map (Lowers.defineInline (hnone rfl) hhint (fun name hname => ?_) ?_) fun kind => ?_
          · exact compose_lowers id hname hchildren
          · exact fun name s => compose_alias c id name hcomposite s
          · exact List.Subset.refl _
        · cases type
          exact List.subset_append_right _ _
      · refine Lowers.bind (describe_lowers id position hhint hchildren hshape) fun type => Lowers.pure ?_
        cases type
        exact List.subset_append_right _ _

theorem Lowers.children (c : Context) (shape : Shape) : Lowers.Nodes c shape.Mentions shape.children :=
  fun m hm given _ hhint => lower_lowers c m (fun _ h => .of_child hm h) given .nested hhint

/-! ## Lowering a definition -/

/-- The draft of a definition: its type stands first, then the types inside it. -/
def Draft.Defines (c : Context) (id : SchemaId) (name : String) (node : SchemaNode) (r : Registry) (d : Draft) : Prop :=
  ∃ (body : TypeBody) (types : List TypeDef),
    Draft.Grows c node.shape.Mentions types (Draft.start r) { d with types := types } ∧
      d.types = ⟨name, id, node.description, body⟩ :: types ∧
        (∀ n ∈ body.uses, Known c node.shape.Mentions d n) ∧ c.Embodies node body

/-- A definition is lowered to a draft of its own, or fails with an error about the unit. -/
theorem lowerDefinition_ends (c : Context) (id : SchemaId) {name : String} (node : SchemaNode) (r : Registry)
    (hname : Capitalized name) :
    Ends (lowerDefinition c id name node) (Draft.start r) (fun _ d => Draft.Defines c id name node r d)
      fun e d => r.Le d.registry ∧ e.isError = true ∧ e.unit = c.unit := by
  have hbody (body : TypeBody) (d : Draft)
      (h : ∃ types, Draft.Grows c node.shape.Mentions types (Draft.start r) d ∧
        ∀ n ∈ body.uses, Known c node.shape.Mentions d n) (hembodies : c.Embodies node body) :
      Ends (insertType 0 ⟨name, id, node.description, body⟩) d (fun _ d => Draft.Defines c id name node r d)
        fun e d => r.Le d.registry ∧ e.isError = true ∧ e.unit = c.unit := by
    obtain ⟨types, hg, hn⟩ := h
    obtain rfl : d.types = types := by simpa [Draft.start] using hg.types_eq
    exact ends_modify.2 ⟨body, d.types, hg, by simp, hn, hembodies⟩
  unfold lowerDefinition
  split
  · next hcomposite =>
    have hgrows : Lowers c node.shape.Mentions [] TypeBody.uses (compose c id name node.shape) :=
      compose_lowers id hname (Lowers.children c node.shape)
    refine ends_bind.2 (((hgrows (Draft.start r) (by simp)).and (compose_alias c id name hcomposite _)).mono ?_
      fun _ _ h => h.1)
    rintro body d ⟨h, hnone⟩
    exact hbody body d h (.inl ⟨hcomposite, hnone⟩)
  · next hplain =>
    have hgrows : Lowers c node.shape.Mentions [] TypeDescriptor.names (describe c id name .nested node.shape) :=
      describe_lowers id .nested hname (Lowers.children c node.shape) fun _ h => h
    refine ends_bind.2 (((hgrows (Draft.start r) (by simp)).and (describe_describes c id name .nested node.shape _)).mono
      ?_ fun _ _ h => h.1)
    rintro type d ⟨h, hdescribes⟩
    refine ends_bind.2 (ends_pure.2 (hbody (.alias (type.orNull node.nullable)) d ?_ (.inr ⟨by simpa using hplain,
      type, hdescribes, rfl⟩)))
    cases type
    simpa [TypeBody.uses, TypeBody.descriptors, TypeDescriptor.orNull, TypeDescriptor.kind, TypeDescriptor.names]
      using h

/-! ## Lowering an operation -/

namespace Lowers

variable {given : List String}

theorem claim (base : String) : Lowers c near given (fun _ => []) (Lowering.claim base) := by
  intro s _
  refine ends_modifyGet.2 ⟨[], ?_, by simp⟩
  exact { Draft.Grows.refl c near s with toAdds := .claim s base, uses := by simp }

end Lowers

theorem lowerParams_lowers (c : Context) {base : String} (hbase : Capitalized base) :
    ∀ (r : Registry) (params : List Parameter),
      Lowers c (fun _ => True) [] (fun p => p.1.flatMap (·.type.names)) (lowerParams c base r params)
  | _, [] => Lowers.pure (List.nil_subset _)
  | r, p :: rest => by
    rw [lowerParams]
    refine Lowers.bind (lower_lowers c p.schema (fun _ _ => trivial) _ .payload (hbase.append _)) fun type => ?_
    refine Lowers.bind ((lowerParams_lowers c hbase _ rest).mono fun _ h => h) fun p => Lowers.pure ?_
    simp

theorem lowerBody_lowers (c : Context) {base : String} (hbase : Capitalized base) (r : Registry)
    (body : Option RequestBody) :
    Lowers c (fun _ => True) [] (fun b => b.elim [] (·.type.names)) (lowerBody c base r body) := by
  cases body with
  | none => exact Lowers.pure (List.nil_subset _)
  | some b =>
    refine Lowers.bind (lower_lowers c b.schema (fun _ _ => trivial) _ .payload (hbase.append _)) fun type => ?_
    exact Lowers.pure (List.subset_append_right _ _)

/-- The type of a response, unless it has no body and is left out. -/
def responseType (c : Context) (base status : String) (response : Response) : Lower (Option TypeDescriptor) :=
  match response.schema, c.config.emptyResponses with
  | some node, _ => some <$> lower c (base ++ pascalCase status ++ "Response") .payload node
  | none, .unit => pure (some (TypeDescriptor.ofKind .unit))
  | none, .omit => pure none

/-- The response of a type. -/
def responseOf (status : String) (description : Option String) (type : TypeDescriptor) : ResponseDef :=
  ⟨status, (responseNames status).1, (responseNames status).2, description, type⟩

@[simp]
theorem type_responseOf (status : String) (description : Option String) (type : TypeDescriptor) :
    (responseOf status description type).type = type := rfl

/-- A response is lowered first, the others after it. -/
theorem lowerResponses_cons (c : Context) (base status : String) (response : Response)
    (rest : List (String × Response)) :
    lowerResponses c base ((status, response) :: rest) = (do
      let type ← responseType c base status response
      let others ← lowerResponses c base rest
      return (type.map (responseOf status response.description)).toList ++ others) := by
  rw [lowerResponses]
  unfold responseType
  cases response.schema with
  | some node => exact bind_congr fun type => bind_congr fun others => by cases type <;> rfl
  | none => cases c.config.emptyResponses <;> rfl

theorem responseType_lowers (c : Context) {base : String} (hbase : Capitalized base) (status : String)
    (response : Response) :
    Lowers c (fun _ => True) [] (fun type => type.elim [] TypeDescriptor.names)
      (responseType c base status response) := by
  unfold responseType
  split
  · next node _ =>
    refine Lowers.map ?_ fun _ => List.Subset.refl _
    exact lower_lowers c node (fun _ _ => trivial) _ .payload ((hbase.append _).append _)
  · exact Lowers.pure (List.nil_subset _)
  · exact Lowers.pure (List.nil_subset _)

theorem lowerResponses_lowers (c : Context) {base : String} (hbase : Capitalized base) :
    ∀ responses : List (String × Response),
      Lowers c (fun _ => True) [] (fun rs => rs.flatMap (·.type.names)) (lowerResponses c base responses)
  | [] => Lowers.pure (List.nil_subset _)
  | (status, response) :: rest => by
    rw [lowerResponses_cons]
    refine Lowers.bind (responseType_lowers c hbase status response) fun type => ?_
    refine Lowers.bind ((lowerResponses_lowers c hbase rest).mono fun _ h => h) fun others => Lowers.pure ?_
    cases type <;> simp

/-- An operation is lowered to a draft of the types in it, or fails with an error about the unit. -/
theorem lowerOperation_lowers (c : Context) (o : Operation) :
    Lowers c (fun _ => True) [] OperationDef.uses (lowerOperation c o) := by
  have hbase : Capitalized (pascalCaseOr o.id "Operation") := capitalized_pascalCaseOr _ ⟨'O', _, rfl, rfl⟩
  unfold lowerOperation
  refine Lowers.bind (Lowers.claim _) fun request => Lowers.bind (Lowers.claim _) fun response => ?_
  refine Lowers.bind (Lowers.claim _) fun service => ?_
  refine Lowers.bind ((lowerParams_lowers c hbase _ _).mono fun _ h => h) fun p => ?_
  refine Lowers.bind ((lowerBody_lowers c hbase _ _).mono fun _ h => h) fun body => ?_
  refine Lowers.bind ((lowerResponses_lowers c hbase _).mono fun _ h => h) fun responses => Lowers.pure ?_
  cases body <;> simp [OperationDef.uses, OperationDef.descriptors, List.flatMap_append, List.flatMap_map]

end Lowering

end ContractBindings
