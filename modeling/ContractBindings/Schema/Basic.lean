import ContractBindings.Document.Pointer
import ContractBindings.Number.Notation

/-!
# Schema nodes

The canonical form of a schema: a node has exactly one shape, whatever keywords it was written with. A node is known by
the pointer where it is first defined, and a reference to a definition stays an edge, so recursive schemas are finite.
-/

namespace ContractBindings

open Number

/-- The identity of a schema node: the pointer of the place where it is defined. -/
structure SchemaId where
  pointer : String
  deriving Repr, DecidableEq, Inhabited

/-- The identity of the node under a segment. -/
def SchemaId.child (id : SchemaId) (segment : String) : SchemaId := ⟨Pointer.child id.pointer segment⟩

/-- The kinds of scalar schemas. -/
inductive PrimitiveKind where
  | string
  | integer
  | number
  | boolean
  deriving Repr, DecidableEq, Inhabited

/-- The format of a scalar schema; a format without a meaning of its own is kept as text. -/
inductive ValueFormat where
  | int32
  | int64
  | float
  | double
  | byte
  | binary
  | date
  | dateTime
  | uuid
  | other (text : String)
  deriving Repr, DecidableEq, Inhabited

/-- The format with a given name. -/
def ValueFormat.ofName (name : String) : ValueFormat :=
  match name with
  | "int32" => .int32
  | "int64" => .int64
  | "float" => .float
  | "double" => .double
  | "byte" => .byte
  | "binary" => .binary
  | "date" => .date
  | "date-time" => .dateTime
  | "uuid" => .uuid
  | text => .other text

/-- A value of an enumeration. Null is none of them, it makes the node nullable. -/
inductive Literal where
  | string (value : String)
  | integer (value : Int)
  | number (value : Binary64)
  | boolean (value : Bool)
  deriving Repr, DecidableEq, Inhabited

namespace Literal

/-- The text of a literal. -/
def text : Literal → String
  | .string s => s
  | .integer i => toString i
  | .number x => x.plain
  | .boolean b => if b then "true" else "false"

/-- Two literals of one kind with the same value; numbers are compared as numbers. -/
def same : Literal → Literal → Bool
  | .string a, .string b => a == b
  | .integer a, .integer b => a == b
  | .number a, .number b => a.sameNumber b
  | .boolean a, .boolean b => a == b
  | _, _ => false

end Literal

/-- How the branches of a union are told apart: the property that holds the tag, and the tags given for schemas. -/
structure Discriminator where
  property : String
  tags : List (SchemaId × String)
  deriving Repr, DecidableEq, Inhabited

mutual

/-- A schema node. -/
inductive SchemaNode where
  | mk (id : SchemaId) (title description : Option String) (nullable : Bool) (shape : Shape)

/-- The shape of a schema node. -/
inductive Shape where
  | primitive (kind : PrimitiveKind) (format : Option ValueFormat)
  /-- A list; without a schema for its items it holds any. -/
  | array (items : Option SchemaNode)
  /-- Named fields, the names that are required in ascending order, and the schema of undeclared properties where those
  are allowed. -/
  | object (fields : List (String × SchemaNode)) (required : List String) (additional : Option SchemaNode)
  | enumeration (values : List Literal)
  | union (branches : List SchemaNode) (discriminator : Option Discriminator)
  /-- Several schemas at once that do not amount to one object. -/
  | intersection (parts : List SchemaNode)
  /-- An edge to a definition. -/
  | reference (target : SchemaId)
  | unknown

end

instance : Inhabited Shape := ⟨.unknown⟩

namespace SchemaNode

/-- The identity of a node. -/
def id : SchemaNode → SchemaId
  | .mk id _ _ _ _ => id

/-- The title of a node. -/
def title : SchemaNode → Option String
  | .mk _ title _ _ _ => title

/-- The description of a node. -/
def description : SchemaNode → Option String
  | .mk _ _ description _ _ => description

/-- Null is a value of the node, too. -/
def nullable : SchemaNode → Bool
  | .mk _ _ _ nullable _ => nullable

/-- The shape of a node. -/
def shape : SchemaNode → Shape
  | .mk _ _ _ _ shape => shape

/-- A node of a shape without title, description or null. -/
def ofShape (id : SchemaId) (shape : Shape) : SchemaNode := .mk id none none false shape

/-- A node that matches no known shape. -/
def unknown (id : SchemaId) : SchemaNode := ofShape id .unknown

instance : Inhabited SchemaNode := ⟨unknown default⟩

end SchemaNode

/-- Why a schema has no canonical form. -/
inductive SchemaError where
  /-- Two parts of a composition declare a field differently. -/
  | incompatibleComposition (schema : SchemaId) (field : String)
  | emptyEnumeration (schema : SchemaId)
  | unsupportedType (schema : SchemaId) (found : String)
  deriving Repr, DecidableEq, Inhabited

/-- The message of a schema error. -/
def SchemaError.message : SchemaError → String
  | .incompatibleComposition schema field =>
    "field `" ++ field ++ "` is declared with different shapes in the parts of `" ++ schema.pointer ++ "`"
  | .emptyEnumeration schema => "enumeration `" ++ schema.pointer ++ "` declares no values"
  | .unsupportedType schema found => "`" ++ schema.pointer ++ "` has an unrecognized type `" ++ found ++ "`"

end ContractBindings
