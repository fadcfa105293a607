/-!
# Configuration

The targets that code is generated for, and the choices a user has. Every choice has a default.
-/

namespace ContractBindings

/-- The language of the generated code. -/
inductive Target where
  | rust
  | protobuf
  deriving Repr, DecidableEq, Inhabited

/-- The name of a target. -/
def Target.name : Target → String
  | .rust => "rust"
  | .protobuf => "protobuf"

/-- The end of the names of a target's files. -/
def Target.extension : Target → String
  | .rust => "rs"
  | .protobuf => "proto"

/-- Where the identifiers of operations come from. -/
inductive OperationNaming where
  /-- From the method and the path. -/
  | path
  /-- From the declared identifier, from the path where none is declared. -/
  | operationId
  deriving Repr, DecidableEq, Inhabited

/-- The name of a source of identifiers. -/
def OperationNaming.name : OperationNaming → String
  | .path => "path"
  | .operationId => "operation_id"

/-- What becomes of unions. -/
inductive UnionPolicy where
  /-- A union of the target, where it has one. -/
  | native
  /-- An opaque value. -/
  | fallback
  deriving Repr, DecidableEq, Inhabited

/-- The name of a policy for unions. -/
def UnionPolicy.name : UnionPolicy → String
  | .native => "native"
  | .fallback => "fallback"

/-- What becomes of schemas without a known shape. -/
inductive UnknownPolicy where
  | reject
  | opaqueValue
  deriving Repr, DecidableEq, Inhabited

/-- The name of a policy for schemas without a known shape. -/
def UnknownPolicy.name : UnknownPolicy → String
  | .reject => "reject"
  | .opaqueValue => "opaque"

/-- What becomes of responses without a body. -/
inductive EmptyResponsePolicy where
  | unit
  | omit
  deriving Repr, DecidableEq, Inhabited

/-- The name of a policy for responses without a body. -/
def EmptyResponsePolicy.name : EmptyResponsePolicy → String
  | .unit => "unit"
  | .omit => "omit"

/-- The choices of a user. -/
structure Config where
  operationNaming : OperationNaming := .path
  unionPolicy : UnionPolicy := .native
  /-- For parameters, request bodies and responses. -/
  unknownPayloads : UnknownPolicy := .reject
  /-- For fields, items and map values. -/
  unknownFields : UnknownPolicy := .opaqueValue
  emptyResponses : EmptyResponsePolicy := .unit
  /-- Units may be rendered side by side; their order never depends on it. -/
  parallel : Bool := true
  /-- The package of generated protobuf files. -/
  package : String := "api"
  /-- Templates that replace built-in ones, by name in ascending order. -/
  templates : List (String × String) := []
  deriving Repr, DecidableEq, Inhabited

end ContractBindings
