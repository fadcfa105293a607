import ContractBindings.Schema.Basic

/-!
# Composition of objects

The parts of a composition are flattened into one object where all of them are objects: the fields in order of first
occurrence, the required names of all parts, and the first schema for undeclared properties. Two parts may declare one
field only with the same shape.

`sameShape` compares two nodes without regard to where they were defined and how they are documented: the identities,
titles and descriptions at every depth do not count, nor do the order of fields and the discriminators of unions.
-/

namespace ContractBindings

/-! ## Structural equality of schemas -/

mutual

/-- Two nodes agree up to places and documentation. -/
def SchemaNode.sameShape : SchemaNode → SchemaNode → Bool
  | .mk _ _ _ nullable shape, .mk _ _ _ nullable' shape' => nullable == nullable' && Shape.same shape shape'

/-- Two shapes agree up to places and documentation. -/
def Shape.same : Shape → Shape → Bool
  | .primitive kind format, .primitive kind' format' => kind == kind' && format == format'
  | .array items, .array items' => Shape.sameOption items items'
  | .object fields required additional, .object fields' required' additional' =>
    fields.length == fields'.length && required == required' && Shape.sameFields fields fields'
      && Shape.sameOption additional additional'
  | .enumeration values, .enumeration values' =>
    values.length == values'.length && (values.zip values').all fun (a, b) => a.same b
  | .union branches _, .union branches' _ => Shape.sameList branches branches'
  | .intersection parts, .intersection parts' => Shape.sameList parts parts'
  | .reference target, .reference target' => target == target'
  | .unknown, .unknown => true
  | _, _ => false

/-- Both schemas are absent, or both are present and agree. -/
def Shape.sameOption : Option SchemaNode → Option SchemaNode → Bool
  | some a, some b => SchemaNode.sameShape a b
  | none, none => true
  | _, _ => false

/-- Two sequences of schemas agree one by one. -/
def Shape.sameList : List SchemaNode → List SchemaNode → Bool
  | [], [] => true
  | a :: as, b :: bs => SchemaNode.sameShape a b && Shape.sameList as bs
  | _, _ => false

/-- Every field of the first object is a field of the second, with the same shape. -/
def Shape.sameFields : List (String × SchemaNode) → List (String × SchemaNode) → Bool
  | [], _ => true
  | (name, field) :: rest, other =>
    (match other.lookup name with
      | some field' => SchemaNode.sameShape field field'
      | none => false) && Shape.sameFields rest other

end

/-! ## Flattening -/

/-- Puts a name into a list of names in ascending order, where it stands once. -/
def insertName (name : String) : List String → List String
  | [] => [name]
  | other :: rest =>
    if name == other then other :: rest
    else if name < other then name :: other :: rest
    else other :: insertName name rest

/-- The names in ascending order, each once. -/
def sortedNames (names : List String) : List String := names.foldl (fun sorted name => insertName name sorted) []

/-- Puts a value under a key: in the place of an earlier value, else at the end. -/
def upsert [BEq κ] (entries : List (κ × α)) (key : κ) (value : α) : List (κ × α) :=
  match entries with
  | [] => [(key, value)]
  | (k, v) :: rest => if k == key then (k, value) :: rest else (k, v) :: upsert rest key value

namespace Composition

/-- The object made of the parts so far. -/
structure Merged where
  fields : List (String × SchemaNode)
  required : List String
  additional : Option SchemaNode

/-- No part yet. -/
def Merged.empty : Merged := ⟨[], [], none⟩

/-- Adds the fields of a part; a field that is declared differently is the error. -/
def addFields (schema : SchemaId) (fields : List (String × SchemaNode)) :
    List (String × SchemaNode) → Except SchemaError (List (String × SchemaNode))
  | [] => .ok fields
  | (name, field) :: rest =>
    match fields.lookup name with
    | some present =>
      if present.sameShape field then addFields schema fields rest
      else .error (.incompatibleComposition schema name)
    | none => addFields schema (fields ++ [(name, field)]) rest

/-- Adds the parts in order. There is no object where a part is none (`none` among the shapes). -/
def addParts (schema : SchemaId) (m : Merged) : List (Option Shape) → Except SchemaError (Option Merged)
  | [] => .ok (some m)
  | some (.object fields required additional) :: rest => do
    let fields ← addFields schema m.fields fields
    addParts schema
      ⟨fields, required.foldl (fun sorted name => insertName name sorted) m.required, m.additional <|> additional⟩ rest
  | _ :: _ => .ok none

/-- The one object that the parts amount to, if they do. -/
def flatten (schema : SchemaId) (parts : List (Option Shape)) : Except SchemaError (Option Shape) := do
  let merged ← addParts schema Merged.empty parts
  return merged.map fun m => .object m.fields m.required m.additional

end Composition

end ContractBindings
