import ContractBindings.Messages.OfModel
import ContractBindings.Proofs.Model.Claims
import ContractBindings.Proofs.Naming.SnakeForm

/-!
# Numbers and names in a message

The fields of a message are numbered from one, whatever it is made of (`numbered_ofType`, `numbered_ofOperation`). Its
names are those of its fields and, in the same scope, the common name of fields of which one is set. Where identifiers
come from claims the names differ (`names_ofOperation`), but the common name is claimed from no registry: it is also the
name of a branch that holds any value, and of no other (`names_nodup_iff`).
-/

namespace ContractBindings

open Naming

namespace Messages

/-! ## Numbers and names -/

/-- The numbers of the fields in a member. -/
def Member.numbers : Member → List Nat
  | .remark _ => []
  | .field _ content => [content.number]
  | .oneOf _ choices => choices.map (·.2.number)

/-- The names that a member declares in the scope of its message. -/
def Member.names : Member → List String
  | .remark _ => []
  | .field _ content => [content.ident]
  | .oneOf name choices => name :: choices.map (·.2.ident)

/-- The numbers of the fields of a message. -/
def Message.numbers (m : Message) : List Nat := m.members.flatMap Member.numbers

/-- The names that are declared in the scope of a message. -/
def Message.names (m : Message) : List String := m.members.flatMap Member.names

/-- The fields of a message have the numbers from one on, in order. -/
def Message.Numbered (m : Message) : Prop := m.numbers = List.range' 1 m.numbers.length

/-- The messages that a unit declares. -/
def Declaration.messages : Declaration → List Message
  | .message m => [m]
  | .enumeration _ => []
  | .procedure request response _ => [request, response]

theorem Message.numbered_of_eq {m : Message} {n : Nat} (h : m.numbers = List.range' 1 n) : m.Numbered := by
  rw [Numbered, h, List.length_range']

@[simp]
theorem MessageField.ident_ofType (type : TypeDescriptor) (ident : String) (number : Nat) (optional : Bool) :
    (MessageField.ofType type ident number optional).ident = ident := by
  obtain ⟨kind, nullable⟩ := type
  cases kind <;> rfl

@[simp]
theorem MessageField.number_ofType (type : TypeDescriptor) (ident : String) (number : Nat) (optional : Bool) :
    (MessageField.ofType type ident number optional).number = number := by
  obtain ⟨kind, nullable⟩ := type
  cases kind <;> rfl

section Members

@[simp]
theorem numbers_fieldMembers : ∀ (number : Nat) (fields : List Field),
    (fieldMembers number fields).flatMap Member.numbers = List.range' number fields.length
  | _, [] => rfl
  | number, f :: rest => by simp [fieldMembers, Member.numbers, numbers_fieldMembers (number + 1) rest, List.range'_succ]

@[simp]
theorem names_fieldMembers : ∀ (number : Nat) (fields : List Field),
    (fieldMembers number fields).flatMap Member.names = fields.map (·.ident)
  | _, [] => rfl
  | number, f :: rest => by simp [fieldMembers, Member.names, names_fieldMembers (number + 1) rest]

@[simp]
theorem numbers_additionalMembers (number : Nat) (additional : Option Field) :
    (additionalMembers number additional).flatMap Member.numbers = List.range' number additional.toList.length := by
  cases additional with
  | none => rfl
  | some f => simp [additionalMembers, Member.numbers]

@[simp]
theorem names_additionalMembers (number : Nat) (additional : Option Field) :
    (additionalMembers number additional).flatMap Member.names = additional.toList.map (·.ident) := by
  cases additional with
  | none => rfl
  | some f => simp [additionalMembers, Member.names]

@[simp]
theorem numbers_choices : ∀ (number : Nat) (variants : List UnionVariant),
    (choices number variants).map (·.2.number) = List.range' number variants.length
  | _, [] => rfl
  | number, v :: rest => by simp [choices, numbers_choices (number + 1) rest, List.range'_succ]

@[simp]
theorem names_choices : ∀ (number : Nat) (variants : List UnionVariant),
    (choices number variants).map (·.2.ident) = variants.map fun v => protobufIdent v.name
  | _, [] => rfl
  | number, v :: rest => by simp [choices, names_choices (number + 1) rest]

@[simp]
theorem numbers_paramMembers : ∀ (number : Nat) (params : List ParamDef),
    (paramMembers number params).flatMap Member.numbers = List.range' number params.length
  | _, [] => rfl
  | number, p :: rest => by simp [paramMembers, Member.numbers, numbers_paramMembers (number + 1) rest, List.range'_succ]

@[simp]
theorem names_paramMembers : ∀ (number : Nat) (params : List ParamDef),
    (paramMembers number params).flatMap Member.names = params.map (·.ident)
  | _, [] => rfl
  | number, p :: rest => by simp [paramMembers, Member.names, names_paramMembers (number + 1) rest]

@[simp]
theorem numbers_bodyMembers (number : Nat) (body : Option BodyDef) :
    (bodyMembers number body).flatMap Member.numbers = List.range' number body.toList.length := by
  cases body with
  | none => rfl
  | some b => simp [bodyMembers, Member.numbers]

@[simp]
theorem names_bodyMembers (number : Nat) (body : Option BodyDef) :
    (bodyMembers number body).flatMap Member.names = body.toList.map (·.ident) := by
  cases body with
  | none => rfl
  | some b => simp [bodyMembers, Member.names]

@[simp]
theorem numbers_responseMembers : ∀ (number : Nat) (responses : List ResponseDef),
    (responseMembers number responses).flatMap Member.numbers = List.range' number responses.length
  | _, [] => rfl
  | number, r :: rest => by
    simp [responseMembers, Member.numbers, numbers_responseMembers (number + 1) rest, List.range'_succ]

@[simp]
theorem names_responseMembers : ∀ (number : Nat) (responses : List ResponseDef),
    (responseMembers number responses).flatMap Member.names = responses.map (·.ident)
  | _, [] => rfl
  | number, r :: rest => by simp [responseMembers, Member.names, names_responseMembers (number + 1) rest]

/-- The names in a message with fields of which one is set, behind remarks. -/
theorem names_union (name : String) {remarks : List Member} (h : ∀ member ∈ remarks, member.names = [])
    (variants : List UnionVariant) : Message.names ⟨name, remarks ++ [.oneOf "value" (choices 1 variants)]⟩ =
      "value" :: variants.map fun v => protobufIdent v.name := by
  rw [Message.names, List.flatMap_append, List.flatMap_eq_nil_iff.2 h]
  simp [Member.names]

end Members

/-! ## Numbers -/

/-- The messages for a type number their fields from one. -/
theorem numbered_ofType (t : TypeDef) : ∀ m ∈ (Declaration.ofType t).messages, m.Numbered := by
  unfold Declaration.ofType
  split
  · next fields additional _ =>
    refine List.forall_mem_singleton.2 (Message.numbered_of_eq (n := fields.length + additional.toList.length) ?_)
    rw [Message.numbers, List.flatMap_append, numbers_fieldMembers, numbers_additionalMembers,
      Nat.add_comm fields.length, List.range'_append_1]
  · exact fun m hm => by cases hm
  · next variants discriminator _ =>
    refine List.forall_mem_singleton.2 (Message.numbered_of_eq (n := variants.length) ?_)
    cases discriminator <;> simp [Message.numbers, Member.numbers]
  · exact List.forall_mem_singleton.2 (Message.numbered_of_eq (n := 1) rfl)
  · next parts _ => exact List.forall_mem_singleton.2 (Message.numbered_of_eq (numbers_fieldMembers 1 parts))
  · refine List.forall_mem_singleton.2 (Message.numbered_of_eq (n := 1) ?_)
    simp [Message.numbers, Member.numbers]

/-- The messages for an operation number their fields from one. -/
theorem numbered_ofOperation (o : OperationDef) : ∀ m ∈ (Declaration.ofOperation o).messages, m.Numbered := by
  refine List.forall_mem_cons.2 ⟨?_, List.forall_mem_singleton.2 ?_⟩
  · refine Message.numbered_of_eq (n := o.params.length + o.body.toList.length) ?_
    rw [Message.numbers, List.flatMap_append, numbers_paramMembers, numbers_bodyMembers, Nat.add_comm o.params.length,
      List.range'_append_1]
  · exact Message.numbered_of_eq (numbers_responseMembers 1 o.responses)

end Messages

/-! ## Names -/

/-- The descriptors of the branches of a body. -/
def TypeBody.branches : TypeBody → List TypeDescriptor
  | .union variants _ => variants.map (·.type)
  | _ => []

/-- A name that begins with a capital letter has its snake form as identifier. -/
theorem protobufIdent_of_capitalized {name : String} (h : Capitalized name) : protobufIdent name = snakeCase name := by
  obtain ⟨c, cs, hform, hc⟩ := h.snakeCase
  have hne : snakeCase name ≠ "" := by
    intro hempty
    rw [hempty] at hform
    cases hform
  have hstem : fieldStem name = snakeCase name := if_neg (by simpa using hne)
  have hdigit : startsWithDigit (snakeCase name) = false := by
    rw [startsWithDigit, hform]
    exact not_isDigit_of_isLower hc
  rw [protobufIdent, hstem, if_neg (by simp [hdigit])]

section Union

variable {variants : List UnionVariant}

/-- The names of types in branches are capitalized, and none that is reserved. -/
def Unreserved (type : TypeDescriptor) : Prop :=
  ∀ name ∈ type.names, Capitalized name ∧ snakeCase name ∉ (Registry.reserving Target.protobuf.capability.reserved).taken

theorem capitalized_variantBase {type : TypeDescriptor} (h : Unreserved type) :
    Capitalized (Lowering.variantBase type) := by
  obtain ⟨kind, nullable⟩ := type
  cases kind with
  | named name recursive => exact (h name (List.mem_singleton_self name)).1
  | scalar scalar =>
    have hall : ∀ scalar : Scalar, (pascalCase scalar.name).toList.head?.any Char.isUpper = true :=
      fun scalar => by cases scalar <;> decide
    exact capitalized_of_head (hall scalar)
  | list item => exact show Capitalized "List" from capitalized_of_head (by decide)
  | map value => exact show Capitalized "Map" from capitalized_of_head (by decide)
  | opaqueValue => exact show Capitalized "Value" from capitalized_of_head (by decide)
  | unit => exact show Capitalized "Unit" from capitalized_of_head (by decide)

/-- Of the names that are asked for branches, that for any value has the form of the common name, and no other. -/
theorem snakeCase_variantBase_iff {type : TypeDescriptor} (h : Unreserved type) :
    snakeCase (Lowering.variantBase type) = "value" ↔ type.kind = .opaqueValue := by
  obtain ⟨kind, nullable⟩ := type
  cases kind with
  | named name recursive =>
    refine iff_of_false (fun hform => ?_) fun hkind => by cases hkind
    have hname : snakeCase name = "value" := hform
    exact (h name (List.mem_singleton_self name)).2 (hname ▸ by decide)
  | scalar scalar =>
    have hno : ∀ scalar : Scalar, snakeCase (pascalCase scalar.name) ≠ "value" := fun scalar => by cases scalar <;> decide
    exact iff_of_false (hno scalar) fun hkind => by cases hkind
  | list item => exact iff_of_false (show snakeCase "List" ≠ "value" by decide) fun hkind => by cases hkind
  | map value => exact iff_of_false (show snakeCase "Map" ≠ "value" by decide) fun hkind => by cases hkind
  | opaqueValue => exact iff_of_true (show snakeCase "Value" = "value" by decide) rfl
  | unit => exact iff_of_false (show snakeCase "Unit" ≠ "value" by decide) fun hkind => by cases hkind

/-- A name with a number has more than one word. -/
theorem snakeCase_numbered_ne {base : String} (h : Capitalized base) (k : Nat) :
    snakeCase (Registry.numbered base k) ≠ "value" := by
  intro hform
  have hvalue : snakeCase "value" = "value" := by decide
  have hwords := words_eq_of_snakeCase_eq (hform.trans hvalue.symm)
  obtain ⟨c, word, ws, hbase, -⟩ := h.words
  rw [words_numbered, hbase] at hwords
  have hlength := congrArg List.length hwords
  rw [List.length_append, List.length_cons, List.length_singleton, show (words "value".toList).length = 1 by decide]
    at hlength
  omega

/-- A branch is named like the common name exactly if one holds any value. -/
theorem value_mem_forms_iff {names : List String} {types : List TypeDescriptor} (htypes : ∀ type ∈ types, Unreserved type)
    (hnames : names = ((Registry.reserving ["Self"]).claimAll (types.map Lowering.variantBase)).1) :
    "value" ∈ names.map snakeCase ↔ ∃ type ∈ types, type.kind = .opaqueValue := by
  subst hnames
  constructor
  · intro hmem
    obtain ⟨name, hname, hform⟩ := List.mem_map.1 hmem
    obtain ⟨base, hbase, hgiven⟩ := Registry.exists_asked hname
    obtain ⟨type, htype, rfl⟩ := List.mem_map.1 hbase
    refine ⟨type, htype, (snakeCase_variantBase_iff (htypes type htype)).1 ?_⟩
    rcases hgiven with rfl | ⟨k, -, rfl⟩
    · exact hform
    · exact absurd hform (snakeCase_numbered_ne (capitalized_variantBase (htypes type htype)) k)
  · rintro ⟨type, htype, hkind⟩
    have hform := (snakeCase_variantBase_iff (htypes type htype)).2 hkind
    have hasked : Lowering.variantBase type ∈ types.map Lowering.variantBase := List.mem_map_of_mem htype
    rcases Registry.exists_form_of_asked (r := Registry.reserving ["Self"]) hasked with htaken | ⟨name, hname, hsame⟩
    · rw [hform] at htaken
      exact absurd htaken (by decide)
    · exact List.mem_map.2 ⟨name, hname, hsame.trans hform⟩

/-- The names of variants that are claimed for the types of branches name fields by their forms. -/
theorem protobufIdent_variants {variants : List UnionVariant} {types : List TypeDescriptor}
    (htypes : ∀ type ∈ types, Unreserved type)
    (hnames : variants.map (·.name) =
      ((Registry.reserving ["Self"]).claimAll (types.map Lowering.variantBase)).1) :
    variants.map (fun v => protobufIdent v.name) = (variants.map (·.name)).map snakeCase := by
  rw [List.map_map]
  refine List.map_congr_left fun v hv => protobufIdent_of_capitalized ?_
  have hname : v.name ∈ variants.map (·.name) := List.mem_map_of_mem hv
  rw [hnames] at hname
  obtain ⟨base, hbase, hgiven⟩ := Registry.exists_asked hname
  obtain ⟨type, htype, rfl⟩ := List.mem_map.1 hbase
  exact hgiven.capitalized (capitalized_variantBase (htypes type htype))

end Union

namespace Messages

/-- The names in the messages of a type with names from claims differ, unless it is a union with a branch that holds any
value. -/
theorem names_nodup_iff {t : TypeDef} (hclaimed : t.body.Claimed .protobuf)
    (hbranches : ∀ type ∈ t.body.branches, Unreserved type) :
    (∀ m ∈ (Declaration.ofType t).messages, m.names.Nodup) ↔ ∀ type ∈ t.body.branches, type.kind ≠ .opaqueValue := by
  have hidents : t.body.idents.Nodup := hclaimed.idents ▸ Registry.claimAll_nodup _ _
  have hplain (h : t.body.branches = []) : ∀ type ∈ t.body.branches, type.kind ≠ .opaqueValue := by
    rw [h]
    exact fun type htype => by cases htype
  unfold Declaration.ofType
  split
  · next fields additional hbody =>
    refine iff_of_true (List.forall_mem_singleton.2 ?_) (hplain (by rw [hbody]; rfl))
    rw [hbody] at hidents
    rwa [Message.names, List.flatMap_append, names_fieldMembers, names_additionalMembers]
  · next hbody => exact iff_of_true (fun m hm => by cases hm) (hplain (by rw [hbody]; rfl))
  · next variants discriminator hbody =>
    have hnames := hclaimed.variants
    rw [hbody] at hnames hbranches ⊢
    have hasked : variants.map (fun v => Lowering.variantBase v.type) =
        (variants.map (·.type)).map Lowering.variantBase := by
      rw [List.map_map]
      rfl
    rw [TypeBody.variantNames, TypeBody.askedNames, hasked] at hnames
    have hforms : ((variants.map (·.name)).map snakeCase).Nodup := hnames ▸ (Registry.claimAll_forms _ _).1
    refine List.forall_mem_singleton.trans ?_
    rw [names_union t.name fun member hmember => ?_, protobufIdent_variants hbranches hnames, List.nodup_cons,
      and_iff_left hforms, value_mem_forms_iff hbranches hnames, not_exists]
    · exact forall_congr' fun type => not_and
    · obtain ⟨d, -, rfl⟩ := Option.map_eq_some_iff.1 (Option.mem_toList.1 hmember)
      rfl
  · next hbody =>
    exact iff_of_true (List.forall_mem_singleton.2 (List.nodup_singleton "value")) (hplain (by rw [hbody]; rfl))
  · next parts hbody =>
    refine iff_of_true (List.forall_mem_singleton.2 ?_) (hplain (by rw [hbody]; rfl))
    rw [hbody] at hidents
    rwa [Message.names, names_fieldMembers]
  · next type hbody =>
    refine iff_of_true (List.forall_mem_singleton.2 ?_) (hplain (by rw [hbody]; rfl))
    simp [Message.names, Member.names]

/-- The names in the messages of an operation differ if the identifiers of what the request holds, and those of the
responses, do. -/
theorem names_ofOperation {o : OperationDef} (hrequest : o.Claimed .protobuf)
    (hresponses : (o.responses.map (·.ident)).Nodup) : ∀ m ∈ (Declaration.ofOperation o).messages, m.names.Nodup := by
  refine List.forall_mem_cons.2 ⟨?_, List.forall_mem_singleton.2 ?_⟩
  · have hidents : o.idents.Nodup := by
      rw [hrequest]
      exact Registry.claimAll_nodup _ _
    rwa [Message.names, List.flatMap_append, names_paramMembers, names_bodyMembers]
  · rwa [Message.names, names_responseMembers]

end Messages

end ContractBindings
