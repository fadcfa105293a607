import ContractBindings.Document
import ContractBindings.Reference.Resolver
import ContractBindings.Schema.Composition
import ContractBindings.Schema.Graph

/-!
# Interpretation of schemas

Turns document trees into schema nodes. A definition is opened when it is first reached and interpreted once; a
reference to it, also one from inside it, becomes an edge. The keywords of a schema decide its shape in a fixed order:
literals, branches, parts, several types, one type, properties, items, a reference.

The interpretation of a node is written for one level, with the interpretation of the levels below as a parameter; the
recursion is on a bound for the depth, which `Interpretation.bound` computes from the document.
-/

namespace ContractBindings

/-- Why a node has no interpretation. -/
inductive InterpretError where
  | schema (error : SchemaError)
  | unresolved (error : Unresolved)
  /-- The bound for the depth was too small. -/
  | tooDeep
  deriving Repr

/-- The definitions opened so far, in order; one that is still being interpreted has no content yet. -/
abbrev Slots := List (SchemaId × Option (Except SchemaError SchemaNode))

namespace Slots

/-- The definition was opened. -/
def isOpen (slots : Slots) (id : SchemaId) : Bool := (slots.lookup id).isSome

/-- The shape of a definition that is finished and has a canonical form. -/
def shape? (slots : Slots) (id : SchemaId) : Option Shape :=
  match slots.lookup id with
  | some (some (.ok node)) => some node.shape
  | _ => none

/-- The graph of the finished definitions. -/
def graph (slots : Slots) : SchemaGraph :=
  ⟨slots.filterMap fun (id, slot) => slot.map fun node => ⟨id, node⟩⟩

end Slots

/-- Interpretations keep the definitions opened so far, also where they fail. -/
abbrev Interpretation (α : Type) := ExceptT InterpretError (StateM Slots) α

namespace Interpretation

/-- The interpretation of a tree as the node with an identity. -/
abbrev Visit := Tree → SchemaId → Interpretation SchemaNode

/-- Runs an interpretation; a schema error is part of the answer. -/
def catchSchema (x : Interpretation α) : Interpretation (Except SchemaError α) := do
  try return .ok (← x)
  catch
    | .schema e => return .error e
    | e => throw e

/-- An answer that may be a schema error. -/
def ofSchema : Except SchemaError α → Interpretation α
  | .ok a => pure a
  | .error e => throw (.schema e)

/-- Opens a definition, unless it is open, and interprets it. -/
def define (visit : Visit) (id : SchemaId) (tree : Tree) : Interpretation Unit := do
  if !(← get).isOpen id then
    modify fun slots => upsert slots id none
    let node ← catchSchema (visit tree id)
    modify fun slots => upsert slots id (some node)

/-- The definition that a reference leads to, opened if it is not. -/
def reference (r : Resolver) (visit : Visit) (reference : String) (holder : SchemaId) : Interpretation SchemaId := do
  match r.find reference holder.pointer with
  | .ok found =>
    define visit ⟨found.pointer⟩ found.node
    return ⟨found.pointer⟩
  | .error e => throw (.unresolved e)

/-- The text under a key. -/
def text? (entries : Entries) (key : String) : Option String := (entries.get? key).bind Tree.asText?

/-- The sequence under a key. -/
def sequence? (entries : Entries) (key : String) : Option (List Tree) := (entries.get? key).bind Tree.asSequence?

/-- The declared types, null among them. -/
def declaredTypes (entries : Entries) : List String :=
  match entries.get? "type" with
  | some (.text declared) => [declared]
  | some (.sequence declared) => declared.filterMap Tree.asText?
  | _ => []

/-- The declared values of an enumeration, or the one of a constant. -/
def declaredValues? (entries : Entries) : Option (List Tree) :=
  match sequence? entries "enum" with
  | some values => some values
  | none => (entries.get? "const").map ([·])

/-- The literal that a tree is. An integer beyond 63 bits is a floating-point literal. -/
def literal? : Tree → Option Literal
  | .text s => some (.string s)
  | .bool b => some (.boolean b)
  | .int i => some (if i < Int.pow 2 63 then .integer i else .number (Number.Binary64.ofInt i))
  | .float x => some (.number x)
  | _ => none

/-- The literals among declared values, and whether null is among them. -/
def literals (id : SchemaId) : List Tree → Except SchemaError (List Literal × Bool)
  | [] => .ok ([], false)
  | tree :: rest =>
    match literal? tree with
    | some value => do
      let (values, hasNull) ← literals id rest
      return (value :: values, hasNull)
    | none =>
      if tree.isNull then do
        let (values, _) ← literals id rest
        return (values, true)
      else .error (.unsupportedType id "non-scalar enumeration value")

/-- The shape of an enumeration, and whether it makes the node nullable. -/
def enumeration (id : SchemaId) (values : List Tree) : Except SchemaError (Shape × Bool) := do
  let (values, hasNull) ← literals id values
  if values.isEmpty then .error (.emptyEnumeration id) else return (.enumeration values, hasNull)

/-- A branch that allows null alone. -/
def isNullBranch (branch : Tree) : Bool := (branch.get? "type").bind Tree.asText? == some "null"

/-- The branches with their indices. -/
def indexed (items : List α) : List (Nat × α) := (List.range items.length).zip items

/-- The keyword for branches and the branches under it. -/
def branches? (entries : Entries) : Option (String × List Tree) :=
  match sequence? entries "oneOf" with
  | some branches => some ("oneOf", branches)
  | none => (sequence? entries "anyOf").map fun branches => ("anyOf", branches)

/-- The pointer that a tag of a discriminator selects: a reference, or the name of a component schema. -/
def tagReference (target : String) : String :=
  if target.toList.head? == some '#' then target else "#/components/schemas/" ++ target

/-- The tags of a discriminator, with the definitions they select. -/
def tags (r : Resolver) (visit : Visit) (holder : SchemaId) (entries : Entries) :
    Interpretation (List (SchemaId × String)) :=
  entries.foldlM (fun selected (tag, target) => do
    match tag.keyText?, target.asText? with
    | some tag, some target =>
      let id ← reference r visit (tagReference target) holder
      return upsert selected id tag
    | _, _ => return selected) []

/-- The discriminator of a union: the property's name alone, or a mapping with the name and tags. -/
def discriminator (r : Resolver) (visit : Visit) (entries : Entries) (id : SchemaId) :
    Interpretation (Option Discriminator) := do
  match entries.get? "discriminator" with
  | none => return none
  | some tree =>
    match tree.asText? with
    | some property => return some ⟨property, []⟩
    | none =>
      match (tree.get? "propertyName").bind Tree.asText? with
      | none => return none
      | some property =>
        let mapping := ((tree.get? "mapping").bind Tree.asMapping?).getD []
        return some ⟨property, ← tags r visit (id.child "discriminator") mapping⟩

/-- The shape of a union, and whether it makes the node nullable. One branch beside null is that branch itself. -/
def union (r : Resolver) (visit : Visit) (entries : Entries) (id : SchemaId) (key : String) (branches : List Tree) :
    Interpretation (Shape × Bool) := do
  let hasNull := branches.any isNullBranch
  let others := (indexed branches).filter fun (_, branch) => !isNullBranch branch
  let nodes ← others.mapM fun (index, branch) => visit branch ((id.child key).child (toString index))
  match nodes, hasNull with
  | [single], true => return (single.shape, true)
  | _, _ => return (.union nodes (← discriminator r visit entries id), hasNull)

/-- The fields of an object. -/
def fields (visit : Visit) (properties : Entries) (id : SchemaId) : Interpretation (List (String × SchemaNode)) :=
  properties.foldlM (fun fields (key, tree) => do
    match key.keyText? with
    | some name => return upsert fields name (← visit tree (id.child name))
    | none => return fields) []

/-- The names in the `required` list. -/
def requiredNames (entries : Entries) : List String :=
  sortedNames (((sequence? entries "required").getD []).filterMap Tree.asText?)

/-- The shape of an object. Without properties any property is allowed, unless that is denied. -/
def object (visit : Visit) (entries : Entries) (id : SchemaId) : Interpretation Shape := do
  let properties := (entries.get? "properties").bind Tree.asMapping?
  let fields ← fields visit (properties.getD []) (id.child "properties")
  let anyId := id.child "additionalProperties"
  let additional ←
    match entries.get? "additionalProperties" with
    | some (.bool false) => pure none
    | some (.bool true) => pure (some (SchemaNode.unknown anyId))
    | some schema => some <$> visit schema anyId
    | none => pure (if properties.isNone then some (SchemaNode.unknown anyId) else none)
  return .object fields (requiredNames entries) additional

/-- The shape of a list. -/
def array (visit : Visit) (entries : Entries) (id : SchemaId) : Interpretation Shape := do
  match entries.get? "items" with
  | some items => return .array (some (← visit items (id.child "items")))
  | none => return .array none

/-- The shape that a declared type gives. -/
def typed (visit : Visit) (declared : String) (entries : Entries) (id : SchemaId) : Interpretation Shape :=
  let primitive (kind : PrimitiveKind) : Interpretation Shape :=
    return .primitive kind ((text? entries "format").map ValueFormat.ofName)
  match declared with
  | "string" => primitive .string
  | "integer" => primitive .integer
  | "number" => primitive .number
  | "boolean" => primitive .boolean
  | "object" => object visit entries id
  | "array" => array visit entries id
  | other => throw (.schema (.unsupportedType id other))

/-- The shape that a part of a composition has: of a reference, the finished definition's. -/
def partShape? (slots : Slots) (part : SchemaNode) : Option Shape :=
  match part.shape with
  | .reference target => slots.shape? target
  | shape => some shape

/-- The shape of a composition: one object where the parts allow it. Properties beside the parts are one more part. -/
def composition (visit : Visit) (entries : Entries) (id : SchemaId) (parts : List Tree) : Interpretation Shape := do
  let nodes ← (indexed parts).mapM fun (index, part) => visit part ((id.child "allOf").child (toString index))
  let siblings ←
    if entries.hasKey "properties" then do
      let shape ← object visit entries id
      pure [SchemaNode.ofShape ((id.child "allOf").child (toString parts.length)) shape]
    else pure []
  let all := nodes ++ siblings
  let slots ← get
  match ← ofSchema (Composition.flatten id (all.map (partShape? slots))) with
  | some merged => return merged
  | none => return .intersection all

/-- The shape of a node with several declared types. -/
def severalTypes (visit : Visit) (declared : List String) (entries : Entries) (id : SchemaId) :
    Interpretation Shape := do
  let nodes ← (indexed declared).mapM fun (index, type) => do
    let branch := (id.child "type").child (toString index)
    return SchemaNode.ofShape branch (← typed visit type entries branch)
  return .union nodes none

/-- The shape of a mapping, and whether the shape makes the node nullable. -/
def shape (r : Resolver) (visit : Visit) (entries : Entries) (id : SchemaId) : Interpretation (Shape × Bool) := do
  let declared := (declaredTypes entries).filter (· != "null")
  let plain (x : Interpretation Shape) : Interpretation (Shape × Bool) := return (← x, false)
  match declaredValues? entries with
  | some values => ofSchema (enumeration id values)
  | none =>
  match branches? entries with
  | some (key, branches) => union r visit entries id key branches
  | none =>
  match sequence? entries "allOf" with
  | some parts => plain (composition visit entries id parts)
  | none =>
  match declared with
  | _ :: _ :: _ => plain (severalTypes visit declared entries id)
  | [type] => plain (typed visit type entries id)
  | [] =>
  if entries.hasKey "properties" || entries.hasKey "additionalProperties" then plain (object visit entries id)
  else if entries.hasKey "items" then plain (array visit entries id)
  else
    match Reference.textOf? entries with
    | some target => return (.reference (← reference r visit target id), false)
    | none => return (.unknown, false)

/-- One level of interpretation: a tree that is no mapping accepts anything. -/
def level (r : Resolver) (visit : Visit) : Visit := fun tree id => do
  match tree.asMapping? with
  | none => return SchemaNode.unknown id
  | some entries =>
    let declaredNull := (declaredTypes entries).contains "null"
    let flagged := ((entries.get? "nullable").bind Tree.asBool?).getD false
    let (shape, shapeNull) ← shape r visit entries id
    return .mk id (text? entries "title") (text? entries "description") (flagged || declaredNull || shapeNull) shape

/-- The interpretation of nodes down to a depth. -/
def node (r : Resolver) : Nat → Tree → SchemaId → Interpretation SchemaNode
  | 0, _, _ => throw .tooDeep
  | depth + 1, tree, id => level r (node r depth) tree id

end Interpretation

mutual

/-- The number of nodes of a tree. -/
def Tree.size : Tree → Nat
  | .sequence items => 1 + Tree.sizeOfItems items
  | .mapping entries => 1 + Tree.sizeOfEntries entries
  | .tagged _ value => 1 + value.size
  | _ => 1

/-- The number of nodes in the items of a sequence. -/
def Tree.sizeOfItems : List Tree → Nat
  | [] => 0
  | item :: rest => item.size + Tree.sizeOfItems rest

/-- The number of nodes in the entries of a mapping. -/
def Tree.sizeOfEntries : List (Tree × Tree) → Nat
  | [] => 0
  | (key, value) :: rest => key.size + value.size + Tree.sizeOfEntries rest

end

namespace Interpretation

/-- A bound for the depth of interpretation: every definition is opened once, there are no more of them than nodes, and
within one definition each level is a smaller part of the document. -/
def bound (root : Tree) : Nat := (root.size + 1) * (root.size + 2)

/-- The interpretation of a tree of the document. -/
def visit (r : Resolver) : Visit := node r (bound r.root)

/-- Opens every component schema, in document order. -/
def components (r : Resolver) (d : Document) : Interpretation Unit :=
  (d.componentSchemas?.getD []).forM fun (key, schema) =>
    match key.keyText? with
    | some name => define (visit r) (SchemaId.child ⟨"#/components/schemas"⟩ name) schema
    | none => pure ()

end Interpretation

end ContractBindings
