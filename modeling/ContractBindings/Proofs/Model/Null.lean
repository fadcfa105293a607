import ContractBindings.Proofs.Model.Generated

/-!
# Null through aliases

A descriptor admits null if it says so or if it names an alias of one that does (`Model.AdmitsNull`). Only definitions
become aliases, and a definition keeps the null of its schema only if it does (`SchemaGraph.KeepsNull`): what becomes a
type of its own says nothing about null. So the descriptor of a use admits null exactly if the use itself is nullable or
the definition whose name it carries keeps null (`admitsNull_named_iff`), and the use of a reference is nullable exactly
if the reference is (`lower_reference`).
-/

namespace ContractBindings

open Lowering

/-- Null is a value of what a descriptor describes: it says so, or it names an alias of such a descriptor. -/
inductive Model.AdmitsNull (m : Model) : TypeDescriptor → Prop
  | nullable {type : TypeDescriptor} : type.nullable = true → AdmitsNull m type
  | through {t : TypeDef} {type : TypeDescriptor} {recursive nullable : Bool} :
    t ∈ m.types → t.body = .alias type → AdmitsNull m type → AdmitsNull m (.mk (.named t.name recursive) nullable)

/-- What admits null without saying so names a type. -/
theorem Model.AdmitsNull.named {m : Model} {type : TypeDescriptor} (h : m.AdmitsNull type)
    (hnull : type.nullable = false) : ∃ name recursive, type = .mk (.named name recursive) false := by
  cases h with
  | nullable hn =>
    rw [hnull] at hn
    cases hn
  | @through t _ recursive nullable _ _ _ =>
    obtain rfl : nullable = false := hnull
    exact ⟨t.name, recursive, rfl⟩

/-- A definition becomes an alias that admits null: it is nullable itself, or refers to one that keeps null. -/
inductive SchemaGraph.KeepsNull (g : SchemaGraph) : SchemaId → Prop
  | nullable {d : Definition} {node : SchemaNode} : d ∈ g.definitions → d.node = .ok node →
    isComposite node.shape = false → node.nullable = true → KeepsNull g d.id
  | reference {d : Definition} {node : SchemaNode} {t : SchemaId} : d ∈ g.definitions → d.node = .ok node →
    node.shape = .reference t → KeepsNull g t → KeepsNull g d.id

namespace Lowering

section Aliases

variable {g : SchemaGraph} {target : Target} {config : Config} (hids : (g.definitions.map (·.id)).Nodup)
  (operations : List Operation)

include hids

/-- An alias in a model is the type of a definition that is no type of its own. -/
theorem definition_of_alias {t : TypeDef} (ht : t ∈ (Model.ofGraph g operations target config).types)
    {type : TypeDescriptor} (hbody : t.body = .alias type) :
    ∃ d ∈ g.definitions, ∃ node failed inner, d.id ∉ lost g target config ∧ d.node = .ok node ∧
      (named g target).names.lookup d.id = some t.name ∧ isComposite node.shape = false ∧
        ((context g target config).about failed d.id).Describes node.shape inner ∧
          type = inner.orNull node.nullable := by
  obtain ⟨added, hadded, hnew⟩ := ofGraph_types target config hids operations
  rw [hadded] at ht
  rcases List.mem_append.1 ht with ht | ht
  · rw [assembled_types] at ht
    obtain ⟨p, hp, ht⟩ := List.mem_flatMap.1 ht
    obtain ⟨hpl, -⟩ := kept_traced hp
    obtain ⟨d, hd, failed, r, node, name, hid, hnode, hname, -, body, types, hg, htypes, -, hembodies⟩ := kept_defines hp
    rw [← hid] at hpl hname hembodies
    rw [htypes] at ht
    rcases List.mem_cons.1 ht with rfl | ht
    · rcases hembodies with ⟨-, hnone⟩ | ⟨hplain, inner, hdescribes, rfl⟩
      · rw [show body = .alias type from hbody] at hnone
        cases hnone
      · cases hbody
        exact ⟨d, hd, node, failed, inner, hpl, hnode, hname, hplain, hdescribes, rfl⟩
    · have hnone := hg.composite t ht
      rw [hbody] at hnone
      cases hnone
  · have hnone := (hnew t ht).2.1
    rw [hbody] at hnone
    cases hnone

/-- The type of a definition that is kept. -/
theorem embodied_of_not_lost {d : Definition} (hd : d ∈ g.definitions) {node : SchemaNode} (hnode : d.node = .ok node)
    (hl : d.id ∉ lost g target config) : ∃ t ∈ (Model.ofGraph g operations target config).types,
      (named g target).names.lookup d.id = some t.name ∧
        ∃ failed, ((context g target config).about failed d.id).Embodies node t.body := by
  obtain ⟨added, hadded, -⟩ := ofGraph_types target config hids operations
  have hsome : ((named g target).names.lookup d.id).isSome = true :=
    lookup_names_isSome_iff.2 ⟨d, hd, rfl, by simp [hnode, Except.isOk, Except.toBool]⟩
  obtain ⟨name, hname⟩ := Option.isSome_iff_exists.1 hsome
  obtain ⟨t, ht, -, rfl, d', hd', failed, node', hid', hnode', hembodies⟩ := mem_assembled_of_not_lost hids hname hl
  obtain rfl : d' = d := List.inj_on_of_nodup_map hids hd' hd hid'
  rw [hnode] at hnode'
  cases hnode'
  refine ⟨t, ?_, hname, failed, hembodies⟩
  rw [hadded]
  exact List.mem_append_left _ ht

/-- A definition that is kept and keeps null admits null under its name. -/
theorem admitsNull_of_keepsNull {id : SchemaId} (h : g.KeepsNull id) (hl : id ∉ lost g target config) {name : String}
    (hname : (named g target).names.lookup id = some name) (recursive nullable : Bool) :
    (Model.ofGraph g operations target config).AdmitsNull (.mk (.named name recursive) nullable) := by
  induction h generalizing name recursive nullable with
  | @nullable d node hd hnode hplain hnull =>
    obtain ⟨t, ht, hname', failed, hembodies⟩ := embodied_of_not_lost hids operations hd hnode hl
    rw [hname] at hname'
    cases hname'
    rcases hembodies with ⟨hcomposite, -⟩ | ⟨-, inner, -, hbody⟩
    · simp [hplain] at hcomposite
    · refine .through ht hbody (.nullable ?_)
      simp [TypeDescriptor.orNull, TypeDescriptor.nullable, hnull]
  | @reference d node t' hd hnode hshape _ ih =>
    obtain ⟨t, ht, hname', failed, hembodies⟩ := embodied_of_not_lost hids operations hd hnode hl
    rw [hname] at hname'
    cases hname'
    have hreferences : t' ∈ node.references := by
      rw [SchemaNode.references_eq, hshape]
      exact List.mem_singleton_self t'
    rcases hembodies with ⟨hcomposite, -⟩ | ⟨-, inner, hdescribes, hbody⟩
    · simp [hshape, isComposite] at hcomposite
    · obtain ⟨name', recursive', hkind, hlookup⟩ := hdescribes.reference hshape
      refine .through ht hbody ?_
      rw [TypeDescriptor.orNull, hkind]
      exact ih (not_lost_of_reference hids hd hnode hl hreferences) hlookup _ _

/-- The definition whose name an alias that admits null carries keeps null. -/
theorem keepsNull_of_admitsNull {type : TypeDescriptor}
    (h : (Model.ofGraph g operations target config).AdmitsNull type) : ∀ {name : String} {recursive : Bool},
      type = .mk (.named name recursive) false →
        ∃ id, (named g target).names.lookup id = some name ∧ id ∉ lost g target config ∧ g.KeepsNull id := by
  induction h with
  | @nullable type hnull =>
    rintro name recursive rfl
    cases hnull
  | @through t type recursive nullable ht hbody hadmits ih =>
    intro name recursive' heq
    cases heq
    obtain ⟨d, hd, node, failed, inner, hl, hnode, hname, hplain, hdescribes, rfl⟩ :=
      definition_of_alias hids operations ht hbody
    refine ⟨d.id, hname, hl, ?_⟩
    cases hnull : node.nullable with
    | true => exact .nullable hd hnode hplain hnull
    | false =>
      have hinner : inner.orNull node.nullable = .mk inner.kind false := by
        rw [TypeDescriptor.orNull, hdescribes.nullable, hnull]
        rfl
      obtain ⟨name', recursive', hnamed⟩ := hadmits.named (congrArg TypeDescriptor.nullable hinner)
      have hkind : inner.kind = .named name' recursive' := congrArg TypeDescriptor.kind hnamed
      obtain ⟨t', hshape, hlookup⟩ := hdescribes.named hkind
      obtain ⟨id, hid, -, hkeeps⟩ := ih hnamed
      obtain rfl := lookup_names_inj hid hlookup
      exact .reference hd hnode hshape hkeeps

/-- The use of a name admits null exactly if it says so or the definition with the name is generated and keeps null. -/
theorem admitsNull_named_iff {name : String} {recursive nullable : Bool} :
    (Model.ofGraph g operations target config).AdmitsNull (.mk (.named name recursive) nullable) ↔
      nullable = true ∨
        ∃ id, (named g target).names.lookup id = some name ∧ id ∉ lost g target config ∧ g.KeepsNull id := by
  constructor
  · intro h
    cases nullable with
    | true => exact .inl rfl
    | false => exact .inr (keepsNull_of_admitsNull hids operations h rfl)
  · rintro (rfl | ⟨id, hname, hl, hkeeps⟩)
    · exact .nullable rfl
    · exact admitsNull_of_keepsNull hids operations hkeeps hl hname recursive nullable

end Aliases

/-! ## Uses of definitions -/

/-- Lowering a reference as a payload fails if it ends at a definition that is refused. -/
theorem refused_throws {c : Context} (h : c.config.unknownPayloads = .reject) (id : SchemaId) (s : Draft)
    {ok : TypeDescriptor → Draft → Prop} : Ends (unknownShape c id .payload) s ok fun _ _ => True := by
  unfold unknownShape
  dsimp only
  rw [h]
  exact ends_throw.2 trivial

/-- A reference is lowered to the use of a name, nullable as the reference is: that of the definition that the node
itself is, else, unless the node has a name already, that of the target. -/
theorem lower_reference (c : Context) (hint : String) (position : Position) {node : SchemaNode} {target : SchemaId}
    (hshape : node.shape = .reference target) (s : Draft) :
    Ends (lower c hint position node) s
      (fun type _ => ∃ name recursive, type = .mk (.named name recursive) node.nullable ∧
        (c.graph.defines node.id = true → c.names.lookup node.id = some name) ∧
          (c.graph.defines node.id = false → node.id ∉ (c.inlineNames ++ s.inlineNames).map (·.1) →
            c.names.lookup target = some name))
      fun _ _ => True := by
  obtain ⟨id, title, description, nullable, shape⟩ := node
  obtain rfl : shape = .reference target := hshape
  obtain ⟨x, hx, hrun⟩ := known?_as c (.mk id title description nullable (.reference target)) position s
  rw [lower]
  refine ends_bind.2 (.of_run_eq hrun ?_)
  cases hx with
  | refused hposition hreject _ =>
    subst hposition
    exact ends_map.2 (refused_throws hreject _ s)
  | definition hdefines =>
    refine ends_bind.2 ((useDefinition_ends c id s).mono ?_ fun _ _ _ => trivial)
    rintro kind s' ⟨⟨name, recursive, rfl, hname⟩, -⟩
    exact ends_pure.2 (ends_pure.2 ⟨name, recursive, rfl, fun _ => hname, fun hno => absurd hdefines (by simp [hno])⟩)
  | @named name hinline hname =>
    refine ends_pure.2 (ends_pure.2 ⟨name, false, rfl, fun h => absurd h (by simp [hinline]), fun _ hno => absurd ?_ hno⟩)
    exact List.mem_map_of_mem (f := (·.1)) (List.mem_append.2 hname)
  | new hinline _ _ =>
    refine ends_pure.2 ?_
    dsimp only
    rw [describe]
    refine ends_bind.2 (ends_map.2 ((useDefinition_ends c target s).mono ?_ fun _ _ _ => trivial))
    rintro kind s' ⟨⟨name, recursive, rfl, hname⟩, -⟩
    refine ends_pure.2 ⟨name, recursive, ?_, fun h => absurd h (by simp [hinline]), fun _ _ => hname⟩
    simp [TypeDescriptor.orNull, TypeDescriptor.ofKind, TypeDescriptor.kind, TypeDescriptor.nullable,
      SchemaNode.nullable]

end Lowering

end ContractBindings
