import ContractBindings.Items.Basic
import ContractBindings.Model.Basic
import ContractBindings.Naming.Identifier
import ContractBindings.Unit.Basic

/-!
# From the model to items

A type becomes a record, an enumeration or a wrapper, an operation becomes the record of its request, the enumeration of
its responses and a trait. Types that are stored where they stand and close a cycle are put in a box.
-/

namespace ContractBindings.Items

open Naming

/-! ## Types -/

/-- The type of a scalar. -/
def scalarType : Scalar → TypeExpr
  | .text | .dateTime | .date => .plain "String"
  | .int32 => .plain "i32"
  | .int64 => .plain "i64"
  | .float => .plain "f32"
  | .double => .plain "f64"
  | .bool => .plain "bool"
  | .uuid => .plain "uuid::Uuid"
  | .bytes => .list (.plain "u8")

/-- The type, or nothing in its place, if the flag is set. -/
def optionalIf (optional : Bool) (type : TypeExpr) : TypeExpr := if optional then .optional type else type

mutual

/-- The type of an item or value of a container. -/
def nestedType : TypeDescriptor → TypeExpr
  | .mk kind nullable => optionalIf nullable (kindType false kind)

/-- The type of what is described; `stored` says that it is stored where it stands. -/
def kindType (stored : Bool) : TypeKind → TypeExpr
  | .scalar scalar => scalarType scalar
  | .list item => .list (nestedType item)
  | .map value => .map (nestedType value)
  | .named name recursive => if recursive && stored then .boxed (.named name) else .named name
  | .opaqueValue => .plain "serde_json::Value"
  | .unit => .plain "()"

end

/-- The type of a field or payload, which may be absent. -/
def storedType (type : TypeDescriptor) (optional : Bool) : TypeExpr :=
  optionalIf (optional || type.nullable) (kindType true type.kind)

/-! ## Records -/

/-- The traits of values that are read and written as data. -/
def dataTraits : List String := ["serde::Deserialize", "serde::Serialize"]

/-- The attributes of every type but enumerations. -/
def dataAttribute : Attribute := .derive (["Debug", "Clone", "PartialEq"] ++ dataTraits)

/-- A type that is read and written as the value it holds. -/
def transparent : Attribute := .serde [.flag "transparent"]

/-- The documentation of a description. -/
def docAttributes (doc : Option String) : List Attribute := (docLines doc).map fun line => .doc (" " ++ line)

/-- The attributes of a field under its name in the data; an optional field that is absent is not written. -/
def fieldAttributes (name : String) (doc : Option String) (required : Bool) : List Attribute :=
  docAttributes doc ++ [.serde [.value "rename" name]]
    ++ (if required then [] else [.serde [.flag "default", .value "skip_serializing_if" "Option::is_none"]])

/-- A field of a record. -/
def fieldOf (f : Field) : FieldItem :=
  ⟨fieldAttributes f.name f.doc f.required, f.ident, storedType f.type (!f.required)⟩

/-- A field whose own fields stand among those of the record. -/
def flattened (f : Field) : FieldItem := ⟨[.serde [.flag "flatten"]], f.ident, storedType f.type false⟩

/-! ## Enumerations -/

/-- A constant of an enumeration; whole numbers among others are written with a point. -/
def constantOf (repr : EnumRepr) : Literal → Literal
  | .integer i => if repr == .number then .number (Number.Binary64.ofInt i) else .integer i
  | value => value

/-- The type that holds the constants of an enumeration. -/
def constantType : EnumRepr → TypeExpr
  | .integer => .plain "i64"
  | .number => .plain "f64"
  | _ => .plain "bool"

/-- The items of an enumeration of texts. -/
def textEnumeration (name : String) (variants : List EnumVariant) : List Item :=
  [.enumeration
    [.derive (["Debug", "Clone", "Copy", "PartialEq", "Eq", "Hash"] ++ dataTraits)] name
      (variants.map fun v => ⟨[.serde [.value "rename" v.value.text]], v.name, none⟩),
    .display name (variants.map fun v => (v.name, v.value.text))]

/-- The items of an enumeration of other literals, which data cannot tell apart by names: a wrapper with constants. -/
def constantEnumeration (name : String) (repr : EnumRepr) (variants : List EnumVariant) : List Item :=
  [.wrapper [.derive (["Debug", "Clone", "Copy", "PartialEq"] ++ dataTraits), transparent] name (constantType repr),
    .constants name (variants.map fun v => (screamingSnakeCase v.name, constantOf repr v.value))]

/-- A branch of a union. With a discriminator, its tag selects it. -/
def branch (discriminator : Option String) (v : UnionVariant) : VariantItem :=
  let rename := match v.tag, discriminator with
    | some tag, some _ => [Attribute.serde [.value "rename" tag]]
    | _, _ => []
  ⟨rename, v.name, some (storedType v.type false)⟩

/-- How the branch of a union is found in the data. -/
def selection : Option String → Attribute
  | some property => .serde [.value "tag" property]
  | none => .serde [.flag "untagged"]

/-! ## Units -/

/-- The items of the unit of a type. -/
def ofType (t : TypeDef) : List Item :=
  match t.body with
  | .struct fields additional =>
    [.record [dataAttribute] t.name (fields.map fieldOf ++ additional.toList.map flattened)]
  | .enumeration .string variants => textEnumeration t.name variants
  | .enumeration repr variants => constantEnumeration t.name repr variants
  | .union variants discriminator =>
    [.enumeration [dataAttribute, selection discriminator] t.name (variants.map (branch discriminator))]
  | .fallback alternatives =>
    [.wrapper [.doc (" Holds one of: " ++ ", ".intercalate alternatives), dataAttribute, transparent] t.name
      (.plain "serde_json::Value")]
  | .composite parts => [.record [dataAttribute] t.name (parts.map flattened)]
  | .alias type => [.wrapper [dataAttribute, transparent] t.name (storedType type false)]

/-- The field of a request for a parameter. -/
def paramField (p : ParamDef) : FieldItem :=
  let place := "Sent in the " ++ p.location.name ++ "."
  let doc := match p.doc with
    | some doc => doc ++ "\n\n" ++ place
    | none => place
  ⟨fieldAttributes p.name (some doc) p.required, p.ident, storedType p.type (!p.required)⟩

/-- The field of a request for its body. -/
def bodyField (b : BodyDef) : FieldItem :=
  let doc := (b.doc.elim "" (· ++ "\n\n")) ++ "Request body, sent as `" ++ b.mediaType ++ "`."
  ⟨docAttributes (some doc), b.ident, storedType b.type (!b.required)⟩

/-- The response carries nothing. -/
def carriesNothing (r : ResponseDef) : Bool :=
  match r.type.kind with
  | .unit => true
  | _ => false

/-- The variant for a response. -/
def responseVariant (r : ResponseDef) : VariantItem :=
  ⟨docAttributes r.doc, r.variant, if carriesNothing r then none else some (storedType r.type false)⟩

/-- The items of the responses of an operation; without responses there are none. -/
def responseItems (name : String) (responses : List ResponseDef) : List Item :=
  if responses.isEmpty then []
  else
    [.enumeration [.derive ["Debug", "Clone", "PartialEq"]] name (responses.map responseVariant),
      .status name (responses.map fun r => ⟨r.variant, !carriesNothing r, r.code⟩)]

/-- The items of the unit of an operation. -/
def ofOperation (o : OperationDef) : List Item :=
  [.record [dataAttribute] o.request (o.params.map paramField ++ o.body.toList.map bodyField),
    .route o.request o.method.capitalName o.path]
    ++ responseItems o.response o.responses
    ++ [.handler o.service o.deprecated (rustIdent o.id) o.request o.response (!o.responses.isEmpty)]

end ContractBindings.Items
