import ContractBindings.Model.Lowering
import ContractBindings.Proofs.Ending
import ContractBindings.Proofs.Model.Enumerations
import ContractBindings.Schema.Interpretation

/-!
# Enumerations from their schemas

Values that are texts alone, truth values alone or numbers alone, with nulls anywhere among them (`UniformValues`), are the
literals of one shape in their order (`enumeration_uniform`), and the literals have a common kind (`isSome_enumRepr`). The
keyword comes before all others, so a schema with such values has an interpretation whatever else it declares, and it opens
no definition (`exists_node_enum`). It is lowered to a type with one variant for each value but the nulls, in their order,
under names that stay apart in both targets (`node_enum`).
-/

namespace ContractBindings

/-- The kinds of scalars that an enumeration can list together. -/
inductive ScalarKind where
  | text
  | truth
  | number
  deriving DecidableEq

/-- The kind of a scalar; null has none, and neither has what stands under a tag. -/
def Tree.scalarKind? : Tree → Option ScalarKind
  | .text _ => some .text
  | .bool _ => some .truth
  | .int _ | .float _ => some .number
  | _ => none

/-- The kind of a literal. -/
def Literal.kind : Literal → ScalarKind
  | .string _ => .text
  | .boolean _ => .truth
  | .integer _ | .number _ => .number

/-- Scalars of one kind, with nulls anywhere among them but not alone. -/
structure UniformValues (values : List Tree) : Prop where
  uniform : ∃ kind, ∀ v ∈ values, v = .null ∨ v.scalarKind? = some kind
  proper : ∃ v ∈ values, v ≠ .null

namespace Interpretation

variable {values : List Tree} {kind : ScalarKind}

/-! ## Literals -/

theorem literal_of_scalarKind {v : Tree} (h : v.scalarKind? = some kind) :
    v.isNull = false ∧ ∃ literal, literal? v = some literal ∧ literal.kind = kind := by
  cases v with
  | text s => exact ⟨rfl, _, rfl, Option.some.inj h⟩
  | bool b => exact ⟨rfl, _, rfl, Option.some.inj h⟩
  | int i =>
    refine ⟨rfl, _, rfl, ?_⟩
    rw [← Option.some.inj h]
    split <;> rfl
  | float x => exact ⟨rfl, _, rfl, Option.some.inj h⟩
  | _ => cases h

/-- Scalars of one kind are literals, but for the nulls. -/
theorem literals_uniform (id : SchemaId) : ∀ {values : List Tree},
    (∀ v ∈ values, v = .null ∨ v.scalarKind? = some kind) →
      literals id values = .ok (values.filterMap literal?, values.any Tree.isNull)
  | [], _ => rfl
  | v :: rest, h => by
    have hrest := literals_uniform id fun w hw => h w (List.mem_cons_of_mem v hw)
    rcases h v List.mem_cons_self with rfl | hkind
    · have hnone : literal? .null = none := rfl
      simp [literals, hnone, Tree.isNull, Tree.untag, hrest, bind, Except.bind, pure, Except.pure]
    · obtain ⟨hnull, literal, hliteral, -⟩ := literal_of_scalarKind hkind
      simp [literals, hliteral, hnull, hrest, bind, Except.bind, pure, Except.pure]

theorem kind_of_mem_literals (h : ∀ v ∈ values, v = .null ∨ v.scalarKind? = some kind) :
    ∀ literal ∈ values.filterMap literal?, literal.kind = kind := by
  intro literal hliteral
  obtain ⟨v, hv, hfound⟩ := List.mem_filterMap.1 hliteral
  rcases h v hv with rfl | hkind
  · cases hfound
  · obtain ⟨-, other, hother, hkind⟩ := literal_of_scalarKind hkind
    rw [hfound] at hother
    cases hother
    exact hkind

theorem literals_ne_nil (h : UniformValues values) : values.filterMap literal? ≠ [] := by
  obtain ⟨kind, huniform⟩ := h.uniform
  obtain ⟨v, hv, hproper⟩ := h.proper
  obtain ⟨-, literal, hliteral, -⟩ := literal_of_scalarKind ((huniform v hv).resolve_left hproper)
  exact List.ne_nil_of_mem (List.mem_filterMap.2 ⟨v, hv, hliteral⟩)

/-- Literals of one kind are represented in common. -/
theorem isSome_enumRepr {found : List Literal} (h : ∀ literal ∈ found, literal.kind = kind) :
    (Lowering.enumRepr? found).isSome = true := by
  have hall {p : Literal → Bool} (hp : ∀ literal : Literal, literal.kind = kind → p literal = true) :
      found.all p = true := List.all_eq_true.2 fun literal hliteral => hp literal (h literal hliteral)
  unfold Lowering.enumRepr?
  cases kind with
  | text =>
    rw [if_pos (hall fun literal hkind => by cases literal <;> first | rfl | cases hkind)]
    rfl
  | truth =>
    split
    · rfl
    · rw [if_pos (hall fun literal hkind => by cases literal <;> first | rfl | cases hkind)]
      rfl
  | number =>
    split
    · rfl
    · split
      · rfl
      · split
        · rfl
        · rw [if_pos (hall fun literal hkind => by cases literal <;> first | rfl | cases hkind)]
          rfl

/-- The shape of values of one kind is the enumeration of their literals, in order. -/
theorem enumeration_uniform (id : SchemaId) (h : UniformValues values) :
    enumeration id values = .ok (.enumeration (values.filterMap literal?), values.any Tree.isNull) := by
  obtain ⟨kind, huniform⟩ := h.uniform
  simp [enumeration, literals_uniform id huniform, literals_ne_nil h, bind, Except.bind, pure, Except.pure]

/-! ## Nodes -/

variable {tree : Tree} {entries : Entries}

/-- A schema with values of one kind is interpreted as their enumeration, at every depth and from all definitions opened
before; no definition is opened. -/
theorem exists_node_enum (htree : tree.asMapping? = some entries) (hvalues : sequence? entries "enum" = some values)
    (h : UniformValues values) (id : SchemaId) : ∃ n : SchemaNode, n.id = id ∧
      n.description = text? entries "description" ∧ n.shape = .enumeration (values.filterMap literal?) ∧
      (values.any Tree.isNull = true → n.nullable = true) ∧
      ∀ r depth slots, (node r (depth + 1) tree id).run.run slots = (.ok n, slots) := by
  let flagged := ((entries.get? "nullable").bind Tree.asBool?).getD false
  let declaredNull := (declaredTypes entries).contains "null"
  refine ⟨.mk id (text? entries "title") (text? entries "description") (flagged || declaredNull || values.any Tree.isNull)
    (.enumeration (values.filterMap literal?)), rfl, rfl, rfl, fun hnull => ?_, fun r depth slots => ?_⟩
  · simp [SchemaNode.nullable, hnull]
  · rw [node, level]
    simp only [htree, shape, declaredValues?, hvalues, enumeration_uniform id h]
    rfl

/-- A whole schema is interpreted down to some depth. -/
theorem exists_depth (r : Resolver) : ∃ depth, visit r = node r (depth + 1) := by
  obtain ⟨depth, hdepth⟩ := Nat.exists_eq_succ_of_ne_zero (Nat.mul_ne_zero (Nat.succ_ne_zero r.root.size)
    (Nat.succ_ne_zero (r.root.size + 1)))
  exact ⟨depth, congrArg (node r) hdepth⟩

/-! ## Main result -/

open Lowering

/-- Values of one kind under `enum` become a type that enumerates their literals, whatever else the schema declares.

* Interpretation gives one node for them, at every depth, and opens no definition.
* As a definition, the node becomes such a type in front of those of the draft.
* Where it is met first, it becomes such a type behind those of the draft and is used by the name of the type.
* The model of a graph that defines it has such a type, whatever becomes of other definitions and of operations. -/
theorem node_enum (htree : tree.asMapping? = some entries) (hvalues : sequence? entries "enum" = some values)
    (h : UniformValues values) (id : SchemaId) : ∃ n : SchemaNode, n.id = id ∧
      (values.any Tree.isNull = true → n.nullable = true) ∧
      (∀ r slots, (visit r tree id).run.run slots = (.ok n, slots) ∧
        ∀ depth, (node r (depth + 1) tree id).run.run slots = (.ok n, slots)) ∧
      (∀ c name s, ∃ t : TypeDef, t.source = id ∧ t.name = name ∧ t.Enumerates (values.filterMap literal?) ∧
        (lowerDefinition c id name n).run.run s = (.ok (), { s with types := t :: s.types })) ∧
      (∀ c hint position s, Context.FirstMet c s id → ∃ (t : TypeDef) (s' : Draft), t.source = id ∧
        t.Enumerates (values.filterMap literal?) ∧ s'.types = s.types ++ [t] ∧
        (lower c hint position n).run.run s = (.ok (.mk (.named t.name false) n.nullable), s')) ∧
      ∀ g : SchemaGraph, (g.definitions.map (·.id)).Nodup → ⟨id, .ok n⟩ ∈ g.definitions →
        ∀ operations target config, ∃ t ∈ (Model.ofGraph g operations target config).types, t.source = id ∧
          t.Enumerates (values.filterMap literal?) := by
  obtain ⟨n, hid, -, hshape, hnullable, hnode⟩ := exists_node_enum htree hvalues h id
  obtain ⟨kind, huniform⟩ := h.uniform
  obtain ⟨repr, hrepr⟩ := Option.isSome_iff_exists.1 (isSome_enumRepr (kind_of_mem_literals huniform))
  have henumerates (name : String) (doc : Option String) := enumerationType_enumerates hrepr id name doc
  refine ⟨n, hid, hnullable, fun r slots => ⟨?_, fun depth => hnode r depth slots⟩, fun c name s => ?_,
    fun c hint position s hfirst => ?_, fun g hids hmem operations target config => ?_⟩
  · obtain ⟨depth, hdepth⟩ := exists_depth r
    rw [hdepth]
    exact hnode r depth slots
  · exact ⟨_, rfl, rfl, henumerates name _, run_lowerDefinition_enumeration c id name s hshape hrepr⟩
  · subst hid
    obtain ⟨name, s', hrun, htypes⟩ := run_lower_enumeration hint position hshape hrepr hfirst
    exact ⟨_, s', rfl, henumerates name _, htypes, hrun⟩
  · obtain ⟨name, ht⟩ := mem_ofGraph_enumeration target config operations hids hmem hshape hrepr
    exact ⟨_, ht, rfl, henumerates name _⟩

/-- Texts that say little of their names: none at all, marks only, a reserved word, and some that look like what is made of
others. -/
def awkwardValues : List Tree :=
  [.text "", .text "-", .null, .text "self", .text "a", .text "A", .text "a_2", .text "all", .text "unspecified"]

/-- A schema of them, which declares another type, too. -/
def awkwardSchema : Tree := .mapping [(.text "type", .text "integer"), (.text "enum", .sequence awkwardValues)]

theorem node_enum_awkwardSchema : ∃ (n : SchemaNode) (literals : List Literal), n.nullable = true ∧
    literals.map Literal.text = ["", "-", "self", "a", "A", "a_2", "all", "unspecified"] ∧
    (visit (Resolver.new awkwardSchema) awkwardSchema ⟨"#"⟩).run.run [] = (.ok n, []) ∧
    (∃ (t : TypeDef) (s : Draft), t.source = ⟨"#"⟩ ∧ t.Enumerates literals ∧ s.types = [t] ∧
      (lower (context ⟨[]⟩ .rust {}) "Item" .payload n).run.run (Draft.start Naming.Registry.empty) =
        (.ok (.mk (.named t.name false) true), s)) ∧
    ∃ t ∈ (Model.ofGraph ⟨[⟨⟨"#"⟩, .ok n⟩]⟩ [] .protobuf {}).types, t.source = ⟨"#"⟩ ∧ t.Enumerates literals := by
  have huniform : UniformValues awkwardValues :=
    ⟨⟨.text, by simp [awkwardValues, Tree.scalarKind?]⟩, .text "", List.mem_cons_self, nofun⟩
  obtain ⟨n, -, hnullable, hvisit, -, hlower, hmodel⟩ :=
    @node_enum awkwardValues awkwardSchema _ rfl rfl huniform ⟨"#"⟩
  have hnull : n.nullable = true := hnullable rfl
  obtain ⟨t, s, hsource, henumerates, htypes, hrun⟩ := hlower (context ⟨[]⟩ .rust {}) "Item" .payload
    (Draft.start Naming.Registry.empty) ⟨rfl, rfl, rfl⟩
  rw [hnull] at hrun
  exact ⟨n, awkwardValues.filterMap literal?, hnull, rfl, (hvisit _ _).1, ⟨t, s, hsource, henumerates, htypes, hrun⟩,
    hmodel _ (by simp) List.mem_cons_self _ _ _⟩

end Interpretation

end ContractBindings
