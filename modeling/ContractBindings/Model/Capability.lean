import ContractBindings.Config
import ContractBindings.Model.Basic
import ContractBindings.Naming.Identifier

/-!
# What the targets can express

The differences between the targets that show in the model: native scalars, containers inside containers, names that
are taken, and the form of identifiers.
-/

namespace ContractBindings

/-- What a target can express natively. -/
structure Capability where
  int32 : Bool
  float : Bool
  uuid : Bool
  dateTime : Bool
  date : Bool
  /-- Bytes that are written as text in base 64. -/
  base64 : Bool
  binary : Bool
  /-- Lists of lists, maps of lists and the like. -/
  nestedContainers : Bool
  /-- Lists and maps as branches of unions. -/
  containerBranches : Bool
  /-- Names of types that are taken before any is claimed. -/
  reserved : List String
  deriving Repr, DecidableEq

namespace Target

/-- What a target can express natively. -/
def capability : Target → Capability
  | .rust =>
    { int32 := true, float := true, uuid := true, dateTime := false, date := false, base64 := false, binary := true,
      nestedContainers := true, containerBranches := true,
      reserved := ["String", "Vec", "Option", "Box", "Result", "HashMap", "Value", "Self"] }
  | .protobuf =>
    { int32 := true, float := true, uuid := false, dateTime := true, date := false, base64 := true, binary := true,
      nestedContainers := false, containerBranches := false,
      reserved := ["Timestamp", "Value", "Empty", "Any"] }

/-- The identifier of a field in a target's code. -/
def fieldIdent : Target → String → String
  | .rust => Naming.rustIdent
  | .protobuf => Naming.protobufIdent

/-- What the names of request types end in. -/
def requestSuffix : Target → String
  | .rust => "Params"
  | .protobuf => "Request"

/-- What the names of services end in. -/
def serviceSuffix : Target → String
  | .rust => "Handler"
  | .protobuf => "Service"

end Target

/-- The scalar type for a kind and a format, as near as the target has one. -/
def Capability.scalar (c : Capability) (kind : PrimitiveKind) (format : Option ValueFormat) : Scalar :=
  match kind, format with
  | .string, some .uuid => if c.uuid then .uuid else .text
  | .string, some .dateTime => if c.dateTime then .dateTime else .text
  | .string, some .date => if c.date then .date else .text
  | .string, some .byte => if c.base64 then .bytes else .text
  | .string, some .binary => if c.binary then .bytes else .text
  | .string, _ => .text
  | .integer, some .int32 => if c.int32 then .int32 else .int64
  | .integer, _ => .int64
  | .number, some .float => if c.float then .float else .double
  | .number, _ => .double
  | .boolean, _ => .bool

end ContractBindings
