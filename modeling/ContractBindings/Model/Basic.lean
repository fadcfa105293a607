import ContractBindings.Diagnostic
import ContractBindings.Number.Reading
import ContractBindings.Operation.Basic

/-!
# The model of generated code

Types and operations as every target generates them: all names and identifiers are settled, and every use of a type is
a descriptor. A renderer only writes the model down.
-/

namespace ContractBindings

/-- Scalar types. -/
inductive Scalar where
  | text
  | int32
  | int64
  | float
  | double
  | bool
  | dateTime
  | date
  | uuid
  | bytes
  deriving Repr, DecidableEq, Inhabited

/-- The name of a scalar type. -/
def Scalar.name : Scalar → String
  | .text => "text"
  | .int32 => "int32"
  | .int64 => "int64"
  | .float => "float"
  | .double => "double"
  | .bool => "bool"
  | .dateTime => "date_time"
  | .date => "date"
  | .uuid => "uuid"
  | .bytes => "bytes"

mutual

/-- The use of a type, which may allow null. -/
inductive TypeDescriptor where
  | mk (kind : TypeKind) (nullable : Bool)

/-- What a descriptor describes. -/
inductive TypeKind where
  | scalar (scalar : Scalar)
  | list (item : TypeDescriptor)
  /-- A map with text keys. -/
  | map (value : TypeDescriptor)
  /-- A type of the model. The use is recursive if it closes a cycle back to the type that holds it. -/
  | named (name : String) (recursive : Bool)
  | opaqueValue
  | unit

end

deriving instance Repr for TypeDescriptor, TypeKind

instance : Inhabited TypeKind := ⟨.unit⟩

namespace TypeDescriptor

/-- What a descriptor describes. -/
def kind : TypeDescriptor → TypeKind
  | .mk kind _ => kind

/-- The descriptor allows null. -/
def nullable : TypeDescriptor → Bool
  | .mk _ nullable => nullable

/-- A descriptor that does not allow null. -/
def ofKind (kind : TypeKind) : TypeDescriptor := .mk kind false

instance : Inhabited TypeDescriptor := ⟨ofKind .unit⟩

/-- The descriptor, allowing null if the flag is set. -/
def orNull (t : TypeDescriptor) (nullable : Bool) : TypeDescriptor := .mk t.kind (t.nullable || nullable)

/-- The descriptor is of a list or a map. -/
def isContainer (t : TypeDescriptor) : Bool :=
  match t.kind with
  | .list _ | .map _ => true
  | _ => false

mutual

/-- The words for a descriptor. -/
def describe : TypeDescriptor → String
  | .mk kind nullable => describeKind kind ++ (if nullable then " or null" else "")

/-- The words for what is described. -/
def describeKind : TypeKind → String
  | .scalar scalar => scalar.name
  | .list item => "list of " ++ describe item
  | .map value => "map of " ++ describe value
  | .named name _ => name
  | .opaqueValue => "any value"
  | .unit => "nothing"

end

mutual

/-- The names of types that a descriptor uses. -/
def names : TypeDescriptor → List String
  | .mk kind _ => namesOfKind kind

/-- The names of types used in what is described. -/
def namesOfKind : TypeKind → List String
  | .list item => names item
  | .map value => names value
  | .named name _ => [name]
  | _ => []

end

end TypeDescriptor

/-- A field of a type: its name in the data and its identifier in the code. -/
structure Field where
  name : String
  ident : String
  doc : Option String
  type : TypeDescriptor
  required : Bool
  deriving Repr, Inhabited

/-- The common kind of the literals of an enumeration. -/
inductive EnumRepr where
  | string
  | integer
  | number
  | boolean
  deriving Repr, DecidableEq, Inhabited

/-- A value of an enumeration under its name. -/
structure EnumVariant where
  name : String
  value : Literal
  deriving Repr, Inhabited

/-- A branch of a union under its name; the tag selects it where the union has a discriminator. -/
structure UnionVariant where
  name : String
  type : TypeDescriptor
  tag : Option String
  deriving Repr, Inhabited

/-- What a type of the model is. -/
inductive TypeBody where
  /-- Fields, and a field for the undeclared properties. -/
  | struct (fields : List Field) (additional : Option Field)
  | enumeration (repr : EnumRepr) (variants : List EnumVariant)
  | union (variants : List UnionVariant) (discriminator : Option String)
  /-- A union that is kept as an opaque value, with the words for its branches. -/
  | fallback (alternatives : List String)
  /-- Several types at once, each a field. -/
  | composite (parts : List Field)
  | alias (type : TypeDescriptor)
  deriving Repr, Inhabited

/-- A type of the model, with the schema that it was made of. -/
structure TypeDef where
  name : String
  source : SchemaId
  doc : Option String
  body : TypeBody
  deriving Repr, Inhabited

/-- A parameter of an operation. -/
structure ParamDef where
  name : String
  ident : String
  location : ParameterLocation
  required : Bool
  doc : Option String
  type : TypeDescriptor
  deriving Repr, Inhabited

/-- The body of a request. -/
structure BodyDef where
  ident : String
  mediaType : String
  required : Bool
  doc : Option String
  type : TypeDescriptor
  deriving Repr, Inhabited

/-- A response of an operation: the name of its variant, and the identifier of its field. -/
structure ResponseDef where
  status : String
  variant : String
  ident : String
  doc : Option String
  type : TypeDescriptor
  deriving Repr, Inhabited

/-- The status as a number of 16 bits, where it is one. -/
def ResponseDef.code (r : ResponseDef) : Option Nat := (Number.unsigned? r.status.toList).filter (· < Nat.pow 2 16)

/-- An operation of the model, with the names of the types for its request and its response and of its service. -/
structure OperationDef where
  id : String
  method : Method
  path : String
  summary : Option String
  description : Option String
  deprecated : Bool
  request : String
  response : String
  service : String
  params : List ParamDef
  body : Option BodyDef
  responses : List ResponseDef
  deriving Repr, Inhabited

/-- The types and operations to generate, with the diagnostics of making them. -/
structure Model where
  types : List TypeDef
  operations : List OperationDef
  diagnostics : List Diagnostic
  deriving Repr, Inhabited

end ContractBindings
