import ContractBindings.Proofs.Model.Flat
import ContractBindings.Proofs.Schema.Inside
import ContractBindings.Unit.Rendering

/-!
# What the text of a unit mentions, and what the unit imports

The types in the fields of a unit's messages, and the messages of its procedure, are what its text mentions
(`Declaration.mentions`); each is built in, is declared by the unit, or is found in another file (`Declaration.Needs`).
Imports are found from descriptors instead. Where descriptors are flat, a field mentions one type for its descriptor
(`ValueType.ofDescriptor`), and the files found for the descriptors are the files of these types
(`mem_importedFiles_iff`).
-/

namespace ContractBindings.Messages

/-! ## Mentions -/

/-- The file that declares a type, unless the type is built in. -/
def ValueType.file? : ValueType → Option String
  | .scalar _ => none
  | .timestamp => some "google/protobuf/timestamp.proto"
  | .anything => some "google/protobuf/struct.proto"
  | .empty => some "google/protobuf/empty.proto"
  | .declared name => some (UnitKind.model.path name .protobuf)

/-- The types that a member mentions. -/
def Member.mentions : Member → List ValueType
  | .remark _ => []
  | .field _ content => [content.type]
  | .oneOf _ choices => choices.map (·.2.type)

/-- The types that a message mentions. -/
def Message.mentions (m : Message) : List ValueType := m.members.flatMap Member.mentions

namespace Declaration

/-- The types that a declaration mentions. -/
def mentions : Declaration → List ValueType
  | .message m => m.mentions
  | .enumeration _ => []
  | .procedure request response service =>
    request.mentions ++ response.mentions ++ [.declared service.request, .declared service.response]

/-- The names of the messages and enumerations that a declaration is made of. -/
def declares : Declaration → List String
  | .message m => [m.name]
  | .enumeration e => [e.name]
  | .procedure request response _ => [request.name, response.name]

/-- A file declares a type that is mentioned and not declared here. -/
def Needs (d : Declaration) (file : String) : Prop :=
  ∃ type ∈ d.mentions, (∀ name ∈ d.declares, type ≠ .declared name) ∧ type.file? = some file

end Declaration

/-- The type that the field for a descriptor mentions. -/
def ValueType.ofDescriptor (type : TypeDescriptor) : ValueType :=
  match type.kind with
  | .list inner | .map inner => .ofKind inner.kind
  | kind => .ofKind kind

@[simp]
theorem MessageField.type_ofType (type : TypeDescriptor) (ident : String) (number : Nat) (optional : Bool) :
    (MessageField.ofType type ident number optional).type = .ofDescriptor type := by
  obtain ⟨kind, nullable⟩ := type
  cases kind <;> rfl

theorem ValueType.ofDescriptor_of_not_container {type : TypeDescriptor} (h : type.isContainer = false) :
    ofDescriptor type = .ofKind type.kind := by
  obtain ⟨kind, nullable⟩ := type
  cases kind with
  | list item => cases h
  | map value => cases h
  | _ => rfl

@[simp]
theorem mentions_fieldMembers : ∀ (number : Nat) (fields : List Field),
    (fieldMembers number fields).flatMap Member.mentions = fields.map fun f => .ofDescriptor f.type
  | _, [] => rfl
  | number, f :: rest => by simp [fieldMembers, Member.mentions, mentions_fieldMembers (number + 1) rest]

@[simp]
theorem mentions_additionalMembers (number : Nat) (additional : Option Field) :
    (additionalMembers number additional).flatMap Member.mentions =
      additional.toList.map fun f => .ofDescriptor f.type := by
  cases additional with
  | none => rfl
  | some f => simp [additionalMembers, Member.mentions]

@[simp]
theorem types_choices : ∀ (number : Nat) (variants : List UnionVariant),
    (choices number variants).map (·.2.type) = variants.map fun v => .ofKind v.type.kind
  | _, [] => rfl
  | number, v :: rest => by simp [choices, types_choices (number + 1) rest]

@[simp]
theorem mentions_paramMembers : ∀ (number : Nat) (params : List ParamDef),
    (paramMembers number params).flatMap Member.mentions = params.map fun p => .ofDescriptor p.type
  | _, [] => rfl
  | number, p :: rest => by simp [paramMembers, Member.mentions, mentions_paramMembers (number + 1) rest]

@[simp]
theorem mentions_bodyMembers (number : Nat) (body : Option BodyDef) :
    (bodyMembers number body).flatMap Member.mentions = body.toList.map fun b => .ofDescriptor b.type := by
  cases body with
  | none => rfl
  | some b => simp [bodyMembers, Member.mentions]

@[simp]
theorem mentions_responseMembers : ∀ (number : Nat) (responses : List ResponseDef),
    (responseMembers number responses).flatMap Member.mentions = responses.map fun r => .ofDescriptor r.type
  | _, [] => rfl
  | number, r :: rest => by simp [responseMembers, Member.mentions, mentions_responseMembers (number + 1) rest]

theorem descriptorsOfType_eq (t : TypeDef) : descriptorsOfType t = t.body.descriptors := by
  unfold descriptorsOfType
  cases t.body with
  | struct fields additional => exact List.map_append
  | _ => rfl

theorem descriptorsOfOperation_eq (o : OperationDef) : descriptorsOfOperation o = o.descriptors := rfl

/-- The unit of a type mentions a type for each of its descriptors, unless it holds any value in place of a union. -/
theorem mentions_ofType {t : TypeDef} (ht : t.body.Flat) (hf : ∀ alternatives, t.body ≠ .fallback alternatives) :
    (Declaration.ofType t).mentions = t.body.descriptors.map .ofDescriptor := by
  unfold Declaration.ofType
  cases hbody : t.body with
  | struct fields additional =>
    simp [Declaration.mentions, Message.mentions, TypeBody.descriptors, Function.comp_def]
  | union variants discriminator =>
    have hplain : ∀ v ∈ variants, ValueType.ofKind v.type.kind = .ofDescriptor v.type := fun v hv =>
      (ValueType.ofDescriptor_of_not_container (ht.branches variants discriminator hbody v hv)).symm
    cases discriminator <;>
      simpa [Declaration.mentions, Message.mentions, Member.mentions, TypeBody.descriptors] using hplain
  | fallback alternatives => exact absurd hbody (hf alternatives)
  | composite parts => simp [Declaration.mentions, Message.mentions, TypeBody.descriptors, Function.comp_def]
  | _ => simp [Declaration.mentions, Message.mentions, Member.mentions, TypeBody.descriptors]

theorem declares_ofType (t : TypeDef) : (Declaration.ofType t).declares = [t.name] := by
  unfold Declaration.ofType
  split <;> rfl

/-- The unit of an operation mentions a type for each of its descriptors, and its own two messages. -/
theorem mentions_ofOperation (o : OperationDef) :
    (Declaration.ofOperation o).mentions =
      o.descriptors.map .ofDescriptor ++ [.declared o.request, .declared o.response] := by
  simp [Declaration.ofOperation, Declaration.mentions, Message.mentions, OperationDef.descriptors, Function.comp_def]

/-! ## Imports -/

/-- The files found for a flat descriptor: that of the type its field mentions, unless the unit declares it. -/
theorem mem_filesOf_iff {type : TypeDescriptor} (ht : type.Flat) (own file : String) :
    file ∈ wellKnown type ++ (type.names.filter (· != own)).map (fun name => UnitKind.model.path name .protobuf) ↔
      ValueType.ofDescriptor type ≠ .declared own ∧ (ValueType.ofDescriptor type).file? = some file := by
  have hsingle (kind : TypeKind) (nullable : Bool) (h : (TypeDescriptor.mk kind nullable).isContainer = false) :
      file ∈ wellKnownOfKind kind ++
          ((TypeDescriptor.namesOfKind kind).filter (· != own)).map (fun name => UnitKind.model.path name .protobuf) ↔
        ValueType.ofKind kind ≠ .declared own ∧ (ValueType.ofKind kind).file? = some file := by
    have hknown (known : String) : file ∈ [known] ↔ some known = some file := by simp [eq_comm]
    cases kind with
    | list item => cases h
    | map value => cases h
    | named name recursive =>
      by_cases hown : name = own
      · simp [wellKnownOfKind, TypeDescriptor.namesOfKind, ValueType.ofKind, hown]
      · simpa [wellKnownOfKind, TypeDescriptor.namesOfKind, ValueType.ofKind, ValueType.file?, hown] using hknown _
    | scalar scalar =>
      cases scalar with
      | dateTime =>
        have htime : ValueType.ofKind (.scalar .dateTime) = .timestamp := rfl
        simpa [wellKnownOfKind, TypeDescriptor.namesOfKind, htime, ValueType.file?] using hknown _
      | _ =>
        simp [wellKnownOfKind, TypeDescriptor.namesOfKind, ValueType.ofKind, ValueType.ofScalar, ValueType.file?]
    | opaqueValue =>
      simpa [wellKnownOfKind, TypeDescriptor.namesOfKind, ValueType.ofKind, ValueType.file?] using hknown _
    | unit => simpa [wellKnownOfKind, TypeDescriptor.namesOfKind, ValueType.ofKind, ValueType.file?] using hknown _
  obtain ⟨kind, nullable⟩ := type
  cases kind with
  | list item =>
    obtain ⟨inner, n⟩ := item
    exact hsingle inner n ht
  | map value =>
    obtain ⟨inner, n⟩ := value
    exact hsingle inner n ht
  | _ => exact hsingle _ nullable rfl

/-- The files that are imported for flat descriptors are those of the types that their fields mention. -/
theorem mem_importedFiles_iff {own file : String} {used : List TypeDescriptor} (h : ∀ type ∈ used, type.Flat) :
    file ∈ importedFiles own used ↔
      ∃ type ∈ used.map ValueType.ofDescriptor, type ≠ .declared own ∧ type.file? = some file := by
  rw [importedFiles, mem_sortedNames, List.mem_flatMap]
  constructor
  · rintro ⟨type, ht, hfile⟩
    exact ⟨.ofDescriptor type, List.mem_map_of_mem ht, (mem_filesOf_iff (h type ht) own file).1 hfile⟩
  · rintro ⟨_, ht, hfile⟩
    obtain ⟨type, hm, rfl⟩ := List.mem_map.1 ht
    exact ⟨type, hm, (mem_filesOf_iff (h type hm) own file).2 hfile⟩

/-- A type whose body is no opaque value in place of a union imports the files that its unit needs. -/
theorem importedFiles_type {t : TypeDef} (ht : t.body.Flat) (hf : ∀ alternatives, t.body ≠ .fallback alternatives)
    (file : String) : file ∈ importedFiles t.name (descriptorsOfType t) ↔ (Declaration.ofType t).Needs file := by
  rw [descriptorsOfType_eq, mem_importedFiles_iff ht.descriptors, Declaration.Needs, declares_ofType,
    mentions_ofType ht hf]
  simp

/-- A type that is any value in place of a union imports nothing. -/
theorem importedFiles_fallback {t : TypeDef} {alternatives : List String} (h : t.body = .fallback alternatives) :
    importedFiles t.name (descriptorsOfType t) = [] := by
  rw [descriptorsOfType, h]
  rfl

/-- An operation imports the files that its unit needs. -/
theorem importedFiles_operation {o : OperationDef} (ho : o.Flat) {file : String}
    (h : (Declaration.ofOperation o).Needs file) : file ∈ importedFiles o.request (descriptorsOfOperation o) := by
  obtain ⟨type, hm, hown, hfile⟩ := h
  have hrequest : type ≠ .declared o.request := hown o.request (by simp [Declaration.ofOperation, Declaration.declares])
  have hresponse : type ≠ .declared o.response :=
    hown o.response (by simp [Declaration.ofOperation, Declaration.declares])
  rw [descriptorsOfOperation_eq, mem_importedFiles_iff ho]
  rw [mentions_ofOperation, List.mem_append] at hm
  rcases hm with hm | hm
  · exact ⟨type, hm, hrequest, hfile⟩
  · simp [hrequest, hresponse] at hm

end ContractBindings.Messages
