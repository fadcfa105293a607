import ContractBindings.Messages.Basic
import ContractBindings.Naming.Identifier
import ContractBindings.Unit.Basic

/-!
# From the model to messages

A type becomes a message or an enumeration, an operation becomes two messages and a service. A container inside a
container and a container as a branch of a union have no form of their own; they are written as any value.
-/

namespace ContractBindings.Messages

open Naming

/-- The type of a scalar. -/
def ValueType.ofScalar : Scalar → ValueType
  | .text | .date | .uuid => .scalar "string"
  | .int32 => .scalar "int32"
  | .int64 => .scalar "int64"
  | .float => .scalar "float"
  | .double => .scalar "double"
  | .bool => .scalar "bool"
  | .dateTime => .timestamp
  | .bytes => .scalar "bytes"

/-- The type of a single value. -/
def ValueType.ofKind : TypeKind → ValueType
  | .scalar s => ofScalar s
  | .named name _ => .declared name
  | .opaqueValue | .list _ | .map _ => .anything
  | .unit => .empty

/-- The field for a descriptor. -/
def MessageField.ofType (type : TypeDescriptor) (ident : String) (number : Nat) (optional : Bool) : MessageField :=
  match type.kind with
  | .list item => ⟨.repeated, .ofKind item.kind, ident, number⟩
  | .map value => ⟨.keyed, .ofKind value.kind, ident, number⟩
  | kind => ⟨if optional || type.nullable then .optional else .single, .ofKind kind, ident, number⟩

/-- A comment that has a text of its own. -/
def remark (text : String) : String := " " ++ text

/-- The comments for a description. -/
def docComments (doc : Option String) : List String :=
  (docLines doc).map fun line => if line == "" then "" else remark line

/-- The fields of a message, numbered from a number on. -/
def fieldMembers (number : Nat) : List Field → List Member
  | [] => []
  | f :: rest =>
    .field (docComments f.doc) (.ofType f.type f.ident number (!f.required)) :: fieldMembers (number + 1) rest

/-- The field for the undeclared properties. -/
def additionalMembers (number : Nat) : Option Field → List Member
  | some f => [.field [] (.ofType f.type f.ident number false)]
  | none => []

/-- The branches of a union as fields of which one is set, numbered from a number on. -/
def choices (number : Nat) : List UnionVariant → List (Option String × MessageField)
  | [] => []
  | v :: rest =>
    (v.tag.map remark, ⟨.single, .ofKind v.type.kind, protobufIdent v.name, number⟩) :: choices (number + 1) rest

/-- The name for the zero of an enumeration: it is made longer until it is none of the others. -/
def zeroName (taken : List String) : Nat → String → String
  | 0, name => name
  | fuel + 1, name => if taken.contains name then zeroName taken fuel (name ++ "_VALUE") else name

/-- The enumeration of literals. The names of its values begin with its own name. -/
def Enumeration.ofVariants (name : String) (variants : List EnumVariant) : Enumeration :=
  let start := screamingSnakeCase name
  let values := variants.map fun v => (remark v.value.text, start ++ "_" ++ screamingSnakeCase v.name)
  ⟨name, zeroName (values.map (·.2)) (values.length + 1) (start ++ "_UNSPECIFIED"), values⟩

/-- What the unit of a type declares. -/
def Declaration.ofType (t : TypeDef) : Declaration :=
  match t.body with
  | .struct fields additional =>
    .message ⟨t.name, fieldMembers 1 fields ++ additionalMembers (fields.length + 1) additional⟩
  | .enumeration _ variants => .enumeration (.ofVariants t.name variants)
  | .union variants discriminator =>
    .message ⟨t.name,
      (discriminator.map fun d => Member.remark (remark ("Selected by `" ++ d ++ "`"))).toList
        ++ [.oneOf "value" (choices 1 variants)]⟩
  | .fallback alternatives =>
    .message ⟨t.name,
      [.remark (remark ("Holds one of: " ++ ", ".intercalate alternatives)),
        .field [] ⟨.single, .anything, "value", 1⟩]⟩
  | .composite parts => .message ⟨t.name, fieldMembers 1 parts⟩
  | .alias type => .message ⟨t.name, [.field [] (.ofType type "value" 1 false)]⟩

/-- The fields for parameters, numbered from a number on. -/
def paramMembers (number : Nat) : List ParamDef → List Member
  | [] => []
  | p :: rest =>
    .field (docComments p.doc ++ [remark ("Sent in the " ++ p.location.name ++ ".")])
      (.ofType p.type p.ident number (!p.required)) :: paramMembers (number + 1) rest

/-- The field for the body of a request. -/
def bodyMembers (number : Nat) : Option BodyDef → List Member
  | some b =>
    [.field (docComments b.doc ++ [remark ("Request body, sent as `" ++ b.mediaType ++ "`.")])
      (.ofType b.type b.ident number (!b.required))]
  | none => []

/-- The fields for responses, numbered from a number on. -/
def responseMembers (number : Nat) : List ResponseDef → List Member
  | [] => []
  | r :: rest =>
    .field (docComments r.doc ++ [remark r.status]) (.ofType r.type r.ident number true)
      :: responseMembers (number + 1) rest

/-- What the unit of an operation declares. -/
def Declaration.ofOperation (o : OperationDef) : Declaration :=
  .procedure ⟨o.request, paramMembers 1 o.params ++ bodyMembers (o.params.length + 1) o.body⟩
    ⟨o.response, responseMembers 1 o.responses⟩
    ⟨o.service, remark (o.method.capitalName ++ " " ++ o.path), pascalCaseOr o.id "Operation", o.request, o.response,
      o.deprecated⟩

/-- The text of a description in front of a declaration. -/
def docText (doc : Option String) : String :=
  String.join ((docComments doc).map fun comment => commentText comment ++ "\n")

end ContractBindings.Messages
