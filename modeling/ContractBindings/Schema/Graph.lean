import ContractBindings.Schema.Composition

/-!
# The schema graph

All definitions of a contract: every component schema and every schema that a reference leads to, in the order in
which they were first reached. A definition that has no canonical form keeps the reason, so that what depends on it
can be left out with a precise message.

Its edges are the references inside the nodes, over which further definitions can be reached. A search for these keeps a queue
of definitions to look at; every definition's edges enter it once, which bounds its length.
-/

namespace ContractBindings

/-- A named schema. -/
structure Definition where
  id : SchemaId
  node : Except SchemaError SchemaNode

/-- The definitions of a contract, in the order they were reached. -/
structure SchemaGraph where
  definitions : List Definition

namespace SchemaGraph

/-- The definition with an identity. -/
def get? (g : SchemaGraph) (id : SchemaId) : Option Definition := g.definitions.find? fun d => d.id == id

/-- The node of a definition that has a canonical form. -/
def node? (g : SchemaGraph) (id : SchemaId) : Option SchemaNode := (g.get? id).bind fun d => d.node.toOption

/-- There is a definition with this identity. -/
def defines (g : SchemaGraph) (id : SchemaId) : Bool := (g.get? id).isSome

end SchemaGraph

/-! ## Edges -/

mutual

/-- The references inside a node, in order. -/
def SchemaNode.references : SchemaNode → List SchemaId
  | .mk _ _ _ _ shape => shape.references

/-- The references inside a shape, in order. -/
def Shape.references : Shape → List SchemaId
  | .array items => Shape.referencesOfOption items
  | .object fields _ additional => Shape.referencesOfFields fields ++ Shape.referencesOfOption additional
  | .union branches _ => Shape.referencesOfList branches
  | .intersection parts => Shape.referencesOfList parts
  | .reference target => [target]
  | _ => []

/-- The references inside a schema that may be absent. -/
def Shape.referencesOfOption : Option SchemaNode → List SchemaId
  | some node => node.references
  | none => []

/-- The references inside a list of schemas. -/
def Shape.referencesOfList : List SchemaNode → List SchemaId
  | [] => []
  | node :: rest => node.references ++ Shape.referencesOfList rest

/-- The references inside fields. -/
def Shape.referencesOfFields : List (String × SchemaNode) → List SchemaId
  | [] => []
  | (_, node) :: rest => node.references ++ Shape.referencesOfFields rest

end

namespace SchemaGraph

/-- The edges of every definition, in ascending order of the pointers and each once. -/
def edges (g : SchemaGraph) : List (SchemaId × List SchemaId) :=
  g.definitions.map fun d =>
    (d.id, (sortedNames ((d.node.toOption.elim [] SchemaNode.references).map SchemaId.pointer)).map SchemaId.mk)

end SchemaGraph

/-- A table of the edges of definitions. -/
abbrev Edges := List (SchemaId × List SchemaId)

namespace Edges

/-- The edges of a definition. -/
def of (edges : Edges) (id : SchemaId) : List SchemaId := (edges.lookup id).getD []

/-- The definitions found by a search with the given queue, after those already found, the latest first. -/
def search (edges : Edges) : Nat → (queue found : List SchemaId) → List SchemaId
  | 0, _, found => found
  | _ + 1, [], found => found
  | fuel + 1, id :: queue, found =>
    if found.contains id then search edges fuel queue found
    else search edges fuel (queue ++ edges.of id) (id :: found)

/-- The number of all edges. -/
def count (edges : Edges) : Nat := (edges.flatMap (·.2)).length

/-- The definitions that are reached from one over one or more edges. -/
def reachable (edges : Edges) (start : SchemaId) : List SchemaId :=
  edges.search (2 * edges.count + 1) (edges.of start) []

end Edges

end ContractBindings
