import ContractBindings.Schema.Basic

/-!
# Items of Rust

The items that a unit of Rust is made of: records, wrappers and enumerations with their attributes, and the
implementations and traits that belong to them. Names are texts of the model; what they are is known when an item is
spelled.
-/

namespace ContractBindings.Items

/-- A type. -/
inductive TypeExpr where
  /-- A type of the language or of a library, by its path. -/
  | plain (path : String)
  /-- A type of the model, by its name. -/
  | named (name : String)
  /-- A type, or nothing in its place. -/
  | optional (type : TypeExpr)
  /-- A type that is not stored where it stands. -/
  | boxed (type : TypeExpr)
  | list (item : TypeExpr)
  | map (value : TypeExpr)
  deriving Repr, DecidableEq, Inhabited

/-- The text of a type. -/
def TypeExpr.text : TypeExpr → String
  | .plain path => path
  | .named name => name
  | .optional type => "Option<" ++ type.text ++ ">"
  | .boxed type => "Box<" ++ type.text ++ ">"
  | .list item => "Vec<" ++ item.text ++ ">"
  | .map value => "std::collections::HashMap<String, " ++ value.text ++ ">"

/-- A setting of an attribute: a flag, or a name with a text. -/
inductive Setting where
  | flag (name : String)
  | value (name text : String)
  deriving Repr, DecidableEq, Inhabited

/-- An attribute of an item, a field or a method. -/
inductive Attribute where
  | doc (text : String)
  | derive (traits : List String)
  /-- How values are read and written as data. -/
  | serde (settings : List Setting)
  | deprecated
  deriving Repr, DecidableEq, Inhabited

/-- A field of a record. -/
structure FieldItem where
  attributes : List Attribute
  ident : String
  type : TypeExpr
  deriving Repr, DecidableEq, Inhabited

/-- A variant of an enumeration, possibly with a payload. -/
structure VariantItem where
  attributes : List Attribute
  ident : String
  payload : Option TypeExpr
  deriving Repr, DecidableEq, Inhabited

/-- A case of the function that tells the status of a response: the variant, whether it has a payload, and the code. -/
structure StatusCase where
  variant : String
  hasPayload : Bool
  code : Option Nat
  deriving Repr, DecidableEq, Inhabited

/-- An item. -/
inductive Item where
  | record (attributes : List Attribute) (name : String) (fields : List FieldItem)
  /-- A type around a single value. -/
  | wrapper (attributes : List Attribute) (name : String) (type : TypeExpr)
  | enumeration (attributes : List Attribute) (name : String) (variants : List VariantItem)
  /-- Writes each variant of an enumeration as a text. -/
  | display (name : String) (texts : List (String × String))
  /-- Named constants of a wrapper, and the list of them all. -/
  | constants (name : String) (values : List (String × Literal))
  /-- The method and the path of a request. -/
  | route (name method path : String)
  /-- Tells the exact status code of a response. -/
  | status (name : String) (cases : List StatusCase)
  /-- The trait of an operation, with one method; the flag says that the method answers with the response. -/
  | handler (name : String) (deprecated : Bool) (method request response : String) (answers : Bool)
  deriving Repr, Inhabited

end ContractBindings.Items
