import ContractBindings.Proofs.Messages.Imports

/-!
# Singular positions

A field of a message has one value, several, or one for each text key, but these are no containers again, and a branch of a
union is a field of one value. The type of each such single value is written from a descriptor: from the item of a list, the
value of a map, and else from the descriptor itself (`TypeBody.singles`, `OperationDef.singles`); these are all that the units
of types and operations ever write the type of (`mentions_ofType_singles`, `mentions_ofOperation_singles`). Written from a
container, the type would silently be any value. In the models for protobuf no descriptor nests containers at any depth, so
none of the singles is one (`ofGraph_singles`).
-/

namespace ContractBindings

/-! ## Parts of a descriptor -/

namespace TypeDescriptor

/-- A descriptor is in another: it is that one, or in the items or values of a container there. -/
inductive Part (whole : TypeDescriptor) : TypeDescriptor → Prop
  | self : Part whole whole
  | item {part : TypeDescriptor} {nullable : Bool} : Part whole (.mk (.list part) nullable) → Part whole part
  | value {part : TypeDescriptor} {nullable : Bool} : Part whole (.mk (.map part) nullable) → Part whole part

/-- Nowhere in the descriptor is the item of a list or the value of a map a list or map again. -/
def NestsNone (t : TypeDescriptor) : Prop :=
  ∀ part inner, t.Part part → part.kind = .list inner ∨ part.kind = .map inner → inner.isContainer = false

/-- What is in a flat descriptor is flat. -/
theorem Flat.part {t part : TypeDescriptor} (h : t.Flat) (hpart : t.Part part) : part.Flat := by
  induction hpart with
  | self => exact h
  | item _ ih => exact flat_of_not_container ih
  | value _ ih => exact flat_of_not_container ih

theorem Flat.nestsNone {t : TypeDescriptor} (h : t.Flat) : t.NestsNone := by
  intro part inner hpart hkind
  have hflat := h.part hpart
  unfold Flat at hflat
  rcases hkind with hkind | hkind
  · rwa [hkind] at hflat
  · rwa [hkind] at hflat

/-- What the type of the field for a descriptor is written from. -/
def single (t : TypeDescriptor) : TypeDescriptor :=
  match t.kind with
  | .list inner | .map inner => inner
  | _ => t

theorem Flat.single {t : TypeDescriptor} (h : t.Flat) : t.single.isContainer = false := by
  obtain ⟨kind, nullable⟩ := t
  cases kind with
  | list item => exact h
  | map value => exact h
  | _ => rfl

end TypeDescriptor

/-! ## What types are written from -/

/-- The descriptors that the unit of a type writes types from. -/
def TypeBody.singles : TypeBody → List TypeDescriptor
  | .union variants _ => variants.map (·.type)
  | body => body.descriptors.map (·.single)

/-- The descriptors that the unit of an operation writes types from. -/
def OperationDef.singles (o : OperationDef) : List TypeDescriptor := o.descriptors.map (·.single)

theorem TypeBody.Flat.singles {b : TypeBody} (h : b.Flat) : ∀ type ∈ b.singles, type.isContainer = false := by
  have hcontent : ∀ type ∈ b.descriptors.map (·.single), type.isContainer = false := by
    intro type htype
    obtain ⟨whole, hwhole, rfl⟩ := List.mem_map.1 htype
    exact (h.descriptors whole hwhole).single
  cases b with
  | union variants discriminator =>
    intro type htype
    obtain ⟨v, hv, rfl⟩ := List.mem_map.1 htype
    exact h.branches variants discriminator rfl v hv
  | _ => exact hcontent

theorem OperationDef.Flat.singles {o : OperationDef} (h : o.Flat) : ∀ type ∈ o.singles, type.isContainer = false := by
  intro type htype
  obtain ⟨whole, hwhole, rfl⟩ := List.mem_map.1 htype
  exact (h whole hwhole).single

namespace Messages

theorem ValueType.ofDescriptor_eq (type : TypeDescriptor) : ofDescriptor type = .ofKind type.single.kind := by
  obtain ⟨kind, nullable⟩ := type
  cases kind <;> rfl

/-- The type that stands for a whole union, where it is kept as an opaque value. -/
def ValueType.inPlaceOf : TypeBody → List ValueType
  | .fallback _ => [.anything]
  | _ => []

/-- The types that the unit of a type mentions, in order: one for each single value, and that in place of a union. -/
theorem mentions_ofType_singles (t : TypeDef) : (Declaration.ofType t).mentions =
    t.body.singles.map (fun type => .ofKind type.kind) ++ ValueType.inPlaceOf t.body := by
  unfold Declaration.ofType
  cases t.body with
  | union variants discriminator =>
    cases discriminator <;>
      simp [Declaration.mentions, Message.mentions, Member.mentions, TypeBody.singles, ValueType.inPlaceOf]
  | _ =>
    simp [Declaration.mentions, Message.mentions, Member.mentions, TypeBody.singles, TypeBody.descriptors,
      ValueType.ofDescriptor_eq, ValueType.inPlaceOf, Function.comp_def]

/-- The types that the unit of an operation mentions, in order: one for each single value, and its two messages. -/
theorem mentions_ofOperation_singles (o : OperationDef) : (Declaration.ofOperation o).mentions =
    o.singles.map (fun type => .ofKind type.kind) ++ [.declared o.request, .declared o.response] := by
  rw [mentions_ofOperation, OperationDef.singles, List.map_map]
  simp [ValueType.ofDescriptor_eq]

/-- Models for protobuf hold what its messages can nest. Nowhere in a descriptor of a type or an operation is the item of a
list or the value of a map a container, no branch of a union is one, and no type in a unit is written from one. -/
theorem ofGraph_singles (g : SchemaGraph) (operations : List Operation) (config : Config) :
    let m := Model.ofGraph g operations .protobuf config
    (∀ t ∈ m.types,
      (∀ type ∈ t.body.descriptors, type.NestsNone) ∧
      (∀ variants discriminator, t.body = .union variants discriminator →
        ∀ v ∈ variants, v.type.isContainer = false) ∧
      (Declaration.ofType t).mentions = t.body.singles.map (fun type => .ofKind type.kind) ++
        ValueType.inPlaceOf t.body ∧
      ∀ type ∈ t.body.singles, type.isContainer = false) ∧
    ∀ o ∈ m.operations,
      (∀ type ∈ o.descriptors, type.NestsNone) ∧
      (Declaration.ofOperation o).mentions = o.singles.map (fun type => .ofKind type.kind) ++
        [.declared o.request, .declared o.response] ∧
      ∀ type ∈ o.singles, type.isContainer = false := by
  have hnest : Target.protobuf.capability.nestedContainers = false := rfl
  obtain ⟨htypes, hoperations⟩ := Lowering.ofGraph_flat hnest rfl g operations config
  refine ⟨fun t ht => ?_, fun o ho => ?_⟩
  · have hflat := htypes t ht
    refine ⟨fun type htype => ?_, hflat.branches, mentions_ofType_singles t, hflat.singles⟩
    exact (hflat.descriptors type htype).nestsNone
  · have hflat := hoperations o ho
    exact ⟨fun type htype => (hflat type htype).nestsNone, mentions_ofOperation_singles o, hflat.singles⟩

end Messages

end ContractBindings
