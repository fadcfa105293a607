import ContractBindings.Model.Capability
import ContractBindings.Naming.Registry
import ContractBindings.Schema.Graph

/-!
# Lowering of schemas

Turns schema nodes into descriptors and types. A node that is an object with fields, an enumeration, a union or a
composition becomes a type of its own, named where it is first met; all else is described in place. Lowering one
definition or one operation makes a *draft*: its types and warnings are kept only if the whole of it succeeds, the names
it claimed stay claimed.
-/

namespace ContractBindings.Lowering

open Naming

/-- Where a schema stands: as the whole of a parameter, body or response, or somewhere inside. -/
inductive Position where
  | payload
  | nested
  deriving Repr, DecidableEq

/-- What lowering one definition or operation depends on. -/
structure Context where
  graph : SchemaGraph
  target : Target
  config : Config
  /-- The definitions reached from every definition. -/
  reachable : List (SchemaId × List SchemaId)
  /-- The names of the definitions that have a canonical form. -/
  names : List (SchemaId × String)
  /-- The names of nodes inside what was lowered before. -/
  inlineNames : List (SchemaId × String)
  /-- The definitions that cannot be generated. -/
  failed : List SchemaId
  /-- The unit that diagnostics are about. -/
  unit : String
  /-- The definition that is lowered. -/
  owner : Option SchemaId

/-- What lowering a definition or operation has come to: the registry, and the types, names and warnings of the draft in
order. -/
structure Draft where
  registry : Registry
  types : List TypeDef
  inlineNames : List (SchemaId × String)
  warnings : List Diagnostic
  deriving Inhabited

/-- The draft of a definition or operation before anything is lowered. -/
def Draft.start (registry : Registry) : Draft := ⟨registry, [], [], []⟩

/-- Lowering ends with an answer or with the diagnostic that leaves the whole unit out. -/
abbrev Lower (α : Type) := ExceptT Diagnostic (StateM Draft) α

/-- Records a warning about the unit. -/
def warn (c : Context) (code : DiagnosticCode) (message : String) : Lower Unit :=
  modify fun d => { d with warnings := d.warnings ++ [Diagnostic.warning code c.unit message] }

/-- Claims the name of a type. -/
def claim (base : String) : Lower String :=
  modifyGet fun d => ((d.registry.claim base).1, { d with registry := (d.registry.claim base).2 })

/-- The diagnostic for a unit that needs a definition which cannot be generated. -/
def dependencySkipped (unit : String) (dependency : SchemaId) : Diagnostic :=
  Diagnostic.error .dependencySkipped unit
    ("depends on `" ++ dependency.pointer ++ "`, which could not be generated")

/-- The use of a definition: recursive if the owner is the definition or is reached from it. -/
def useDefinition (c : Context) (target : SchemaId) : Lower TypeKind :=
  match c.names.lookup target with
  | some name =>
    if c.failed.contains target then throw (dependencySkipped c.unit target)
    else
      let closesCycle (owner : SchemaId) : Bool :=
        target == owner || ((c.reachable.lookup target).getD []).contains owner
      return .named name (c.owner.elim false closesCycle)
  | none => throw (dependencySkipped c.unit target)

/-- A schema without a known shape, by the policy for its position. -/
def unknownShape (c : Context) (id : SchemaId) (position : Position) : Lower TypeDescriptor := do
  let policy := match position with
    | .payload => c.config.unknownPayloads
    | .nested => c.config.unknownFields
  match policy with
  | .reject =>
    throw (Diagnostic.error .unknownShape c.unit ("`" ++ id.pointer ++ "` has no recognizable shape"))
  | .opaqueValue =>
    warn c .opaqueFallback ("`" ++ id.pointer ++ "` has no recognizable shape and is kept as an opaque value")
    return TypeDescriptor.ofKind .opaqueValue

/-- The definition without a known shape that a chain of references ends at. -/
def shapelessEnd (g : SchemaGraph) : Nat → List SchemaId → SchemaId → Option SchemaId
  | 0, _, _ => none
  | fuel + 1, passed, target =>
    if passed.contains target then none
    else
      match g.node? target with
      | none => none
      | some node =>
        match node.shape with
        | .unknown => some target
        | .reference next => shapelessEnd g fuel (target :: passed) next
        | _ => none

/-- The definition without a known shape that a node stands for. -/
def shapelessDefinition (g : SchemaGraph) (node : SchemaNode) : Option SchemaId :=
  let start :=
    if g.defines node.id then some node.id
    else
      match node.shape with
      | .reference target => some target
      | _ => none
  start.bind (shapelessEnd g (g.definitions.length + 1) [])

/-- The item or value of a container, an opaque value where the target cannot nest it. -/
def contained (c : Context) (inner : TypeDescriptor) (id : SchemaId) : Lower TypeDescriptor := do
  if inner.isContainer && !c.target.capability.nestedContainers then
    warn c .containerDowngraded
      ("`" ++ id.pointer ++ "` nests a " ++ inner.describe ++ " inside a container, which " ++ c.target.name
        ++ " can't express; it is kept as an opaque value")
    return TypeDescriptor.ofKind .opaqueValue
  return inner

/-- The common kind of literals. -/
def enumRepr? (values : List Literal) : Option EnumRepr :=
  if values.all fun v => v matches .string _ then some .string
  else if values.all fun v => v matches .boolean _ then some .boolean
  else if values.all fun v => v matches .integer _ then some .integer
  else if values.all fun v => v matches .integer _ | .number _ then some .number
  else none

/-- The shape becomes a type of its own. -/
def isComposite : Shape → Bool
  | .object fields _ additional => !(fields.isEmpty && additional.isSome)
  | .enumeration values => (enumRepr? values).isSome
  | .union .. => true
  | .intersection _ => true
  | _ => false

/-- The node stands for an object; a reference does if its definition does. -/
def isObjectLike (g : SchemaGraph) : Nat → Shape → Bool
  | 0, _ => false
  | fuel + 1, shape =>
    match shape with
    | .object fields _ additional => !(fields.isEmpty && additional.isSome)
    | .intersection _ => true
    | .reference target => (g.node? target).elim false fun node => isObjectLike g fuel node.shape
    | _ => false

/-- The variants of an enumeration. -/
def enumVariants (r : Registry) : List Literal → List EnumVariant
  | [] => []
  | value :: rest =>
    let (name, r) := r.claim (pascalCaseOr value.text "Value")
    ⟨name, value⟩ :: enumVariants r rest

/-- The base of a union variant's name. -/
def variantBase (type : TypeDescriptor) : String :=
  match type.kind with
  | .named name _ => name
  | .scalar scalar => pascalCase scalar.name
  | .list _ => "List"
  | .map _ => "Map"
  | .opaqueValue => "Value"
  | .unit => "Unit"

/-- The variants for the types of a union's branches. -/
def unionVariants (r : Registry) : List TypeDescriptor → List UnionVariant
  | [] => []
  | type :: rest =>
    let (name, r) := r.claim (variantBase type)
    ⟨name, type, none⟩ :: unionVariants r rest

/-- The tag of a branch: the one given for its schema, else the last segment of a reference or the variant's name. -/
def branchTag (d : Discriminator) (variant : UnionVariant) (branch : SchemaNode) : String :=
  match branch.shape with
  | .reference target => (d.tags.lookup target).getD (Pointer.lastSegment target.pointer)
  | _ => (d.tags.lookup branch.id).getD variant.name

/-- The body of a union with the given types of its branches. -/
def unionBody (c : Context) (name : String) (branches : List SchemaNode) (discriminator : Option Discriminator)
    (types : List TypeDescriptor) : Lower TypeBody := do
  let variants := unionVariants (Registry.reserving ["Self"]) types
  let downgrade : Option String :=
    match c.config.unionPolicy with
    | .fallback => some "the fallback union policy is configured"
    | .native =>
      if !c.target.capability.containerBranches && types.any TypeDescriptor.isContainer then
        some (c.target.name ++ " unions can't hold list or map branches")
      else none
  match downgrade with
  | some reason =>
    warn c .unionDowngraded ("`" ++ name ++ "` is generated as an opaque value: " ++ reason)
    return .fallback (types.map TypeDescriptor.describe)
  | none =>
    match discriminator with
    | none => return .union variants none
    | some d =>
      let depth := c.graph.definitions.length + 2
      if branches.all fun branch => !branch.nullable && isObjectLike c.graph depth branch.shape then
        return .union ((variants.zip branches).map fun (variant, branch) =>
          { variant with tag := some (branchTag d variant branch) }) (some d.property)
      else
        warn c .discriminatorDropped
          ("discriminator `" ++ d.property ++ "` of `" ++ name ++ "` is ignored, not every branch is an object")
        return .union variants none

/-- The identifier of a part of a composition: the name of its type, or its number. -/
def partIdent (c : Context) (type : TypeDescriptor) (number : Nat) : String :=
  match type.kind with
  | .named name _ => c.target.fieldIdent name
  | _ => "part_" ++ toString number

/-- The base of the name of a type inside a definition or operation: its title, or what it is used for. -/
def inlineBase (title : Option String) (hint : String) : String :=
  match title with
  | some title => pascalCaseOr title "Type"
  | none => hint

/-- Puts a type in at a place among the types of the draft. -/
def insertType (place : Nat) (type : TypeDef) : Lower Unit :=
  modify fun d => { d with types := d.types.take place ++ type :: d.types.drop place }

/-- Names a node inside a definition or operation and adds the type that it becomes, before the types inside it. -/
def defineInline (id : SchemaId) (title doc : Option String) (hint : String) (body : String → Lower TypeBody) :
    Lower TypeKind := do
  let name ← claim (inlineBase title hint)
  modify fun d => { d with inlineNames := d.inlineNames ++ [(id, name)] }
  let place := (← get).types.length
  let body ← body name
  insertType place ⟨name, id, doc, body⟩
  return .named name false

/-- What is known of a node without looking inside: a shapeless definition as a payload is refused, a definition is
used by reference, and a node that has a name is used by it. -/
def known? (c : Context) (node : SchemaNode) (position : Position) : Lower (Option TypeDescriptor) := do
  let shapeless :=
    if position == .payload && c.config.unknownPayloads == .reject then shapelessDefinition c.graph node else none
  match shapeless with
  | some target => some <$> unknownShape c target position
  | none =>
    if c.graph.defines node.id then
      return some (.mk (← useDefinition c node.id) node.nullable)
    else
      match c.inlineNames.lookup node.id <|> (← get).inlineNames.lookup node.id with
      | some name => return some (.mk (.named name false) node.nullable)
      | none => return none

/-- The field for the undeclared properties of an object. -/
def additionalField (r : Registry) (value : TypeDescriptor) : Field :=
  ⟨"additionalProperties", (r.claim "additional_properties").1, none, TypeDescriptor.ofKind (.map value), true⟩

mutual

/-- The descriptor of a node. `hint` names the type that the node may become. -/
def lower (c : Context) (hint : String) (position : Position) : SchemaNode → Lower TypeDescriptor
  | .mk id title description nullable shape => do
    match ← known? c (.mk id title description nullable shape) position with
    | some type => return type
    | none =>
      let type ←
        if isComposite shape then
          TypeDescriptor.ofKind <$> defineInline id title description hint fun name => compose c id name shape
        else describe c id hint position shape
      return type.orNull nullable

/-- The descriptor of a shape that becomes no type of its own. -/
def describe (c : Context) (id : SchemaId) (hint : String) (position : Position) : Shape → Lower TypeDescriptor
  | .primitive kind format => return TypeDescriptor.ofKind (.scalar (c.target.capability.scalar kind format))
  | .array items => do
    let item ← lowerOr c (hint ++ "Item") (unknownShape c (id.child "items") .nested) items
    return TypeDescriptor.ofKind (.list (← contained c item id))
  | .object _ _ additional => do
    let value ← lowerOr c (hint ++ "Value") (unknownShape c id .nested) additional
    return TypeDescriptor.ofKind (.map (← contained c value id))
  | .enumeration _ => do
    warn c .opaqueFallback ("`" ++ id.pointer ++ "` mixes literal kinds and is kept as an opaque value")
    return TypeDescriptor.ofKind .opaqueValue
  | .reference target => return TypeDescriptor.ofKind (← useDefinition c target)
  | _ => unknownShape c id position

/-- The body of the type that a shape becomes. -/
def compose (c : Context) (id : SchemaId) (name : String) : Shape → Lower TypeBody
  | .object fields required additional => do
    let (fields, r) ← lowerFields c name required Registry.empty fields
    let value ← lowerOption c (name ++ "Value") additional
    match value with
    | some value => return .struct fields (some (additionalField r (← contained c value id)))
    | none => return .struct fields none
  | .enumeration values =>
    return .enumeration ((enumRepr? values).getD .string) (enumVariants (Registry.reserving ["Self"]) values)
  | .union branches discriminator => do
    let types ← lowerBranches c name 1 branches
    unionBody c name branches discriminator types
  | .intersection parts => do
    return .composite (← lowerParts c name 1 Registry.empty parts)
  | _ => return .alias default

/-- The descriptor of a schema that may be absent, or what stands for it. -/
def lowerOr (c : Context) (hint : String) (absent : Lower TypeDescriptor) : Option SchemaNode → Lower TypeDescriptor
  | some node => lower c hint .nested node
  | none => absent

/-- The descriptor of a schema that may be absent. -/
def lowerOption (c : Context) (hint : String) : Option SchemaNode → Lower (Option TypeDescriptor)
  | some node => some <$> lower c hint .nested node
  | none => return none

/-- The fields of an object, and the registry of their identifiers. -/
def lowerFields (c : Context) (name : String) (required : List String) (r : Registry) :
    List (String × SchemaNode) → Lower (List Field × Registry)
  | [] => return ([], r)
  | (wire, node) :: rest => do
    let type ← lower c (name ++ pascalCase wire) .nested node
    let (ident, r) := r.claim (c.target.fieldIdent wire)
    let (fields, r) ← lowerFields c name required r rest
    return (⟨wire, ident, node.description, type, required.contains wire⟩ :: fields, r)

/-- The descriptors of the branches of a union, from a number on. -/
def lowerBranches (c : Context) (name : String) (number : Nat) : List SchemaNode → Lower (List TypeDescriptor)
  | [] => return []
  | node :: rest => do
    let type ← lower c (name ++ "Variant" ++ toString number) .nested node
    return type :: (← lowerBranches c name (number + 1) rest)

/-- The parts of a composition as fields, from a number on. -/
def lowerParts (c : Context) (name : String) (number : Nat) (r : Registry) : List SchemaNode → Lower (List Field)
  | [] => return []
  | node :: rest => do
    let type ← lower c (name ++ "Part" ++ toString number) .nested node
    let (ident, r) := r.claim (partIdent c type number)
    return ⟨ident, ident, node.description, type, true⟩ :: (← lowerParts c name (number + 1) r rest)

end

/-- Lowers a definition to its type, put before the types inside it. -/
def lowerDefinition (c : Context) (id : SchemaId) (name : String) (node : SchemaNode) : Lower Unit := do
  let body ←
    if isComposite node.shape then compose c id name node.shape
    else do
      let type ← describe c id name .nested node.shape
      pure (.alias (type.orNull node.nullable))
  insertType 0 ⟨name, id, node.description, body⟩

/-- Lowers the parameters of an operation, with the registry of their identifiers. -/
def lowerParams (c : Context) (base : String) (r : Registry) : List Parameter → Lower (List ParamDef × Registry)
  | [] => return ([], r)
  | p :: rest => do
    let type ← lower c (base ++ pascalCase p.name) .payload p.schema
    let (ident, r) := r.claim (c.target.fieldIdent p.name)
    let (params, r) ← lowerParams c base r rest
    return (⟨p.name, ident, p.location, p.required, p.description, type⟩ :: params, r)

/-- Lowers the body of a request. -/
def lowerBody (c : Context) (base : String) (r : Registry) : Option RequestBody → Lower (Option BodyDef)
  | none => return none
  | some b => do
    let type ← lower c (base ++ "Body") .payload b.schema
    return some ⟨(r.claim "body").1, b.mediaType, b.required, b.description, type⟩

/-- The variant and the identifier of a response. -/
def responseNames (status : String) : String × String :=
  if status == "default" then ("Default", "default")
  else ("Status" ++ status, "status_" ++ String.ofList (status.toList.map Char.toLower))

/-- Lowers the responses of an operation; one without a body is left out if the configuration says so. -/
def lowerResponses (c : Context) (base : String) : List (String × Response) → Lower (List ResponseDef)
  | [] => return []
  | (status, response) :: rest => do
    let type ←
      match response.schema, c.config.emptyResponses with
      | some node, _ => some <$> lower c (base ++ pascalCase status ++ "Response") .payload node
      | none, .unit => pure (some (TypeDescriptor.ofKind .unit))
      | none, .omit => pure none
    let others ← lowerResponses c base rest
    match type with
    | some type =>
      let (variant, ident) := responseNames status
      return ⟨status, variant, ident, response.description, type⟩ :: others
    | none => return others

/-- Lowers an operation. The names of its three types are claimed before anything inside it. -/
def lowerOperation (c : Context) (o : Operation) : Lower OperationDef := do
  let base := pascalCaseOr o.id "Operation"
  let request ← claim (base ++ c.target.requestSuffix)
  let response ← claim (base ++ "Response")
  let service ← claim (base ++ c.target.serviceSuffix)
  let (params, r) ← lowerParams c base Registry.empty o.parameters
  let body ← lowerBody c base r o.requestBody
  let responses ← lowerResponses c base o.responses
  return ⟨o.id, o.method, o.path, o.summary, o.description, o.deprecated, request, response, service, params, body,
    responses⟩

end ContractBindings.Lowering
