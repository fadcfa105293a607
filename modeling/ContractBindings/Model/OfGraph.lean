import ContractBindings.Model.Lowering

/-!
# From the schema graph to the model

Definitions are lowered in graph order, then operations in document order. A definition that depends on one that cannot
be generated cannot be generated either; such failures are spread over the edges until nothing changes. Only then are
the types of the definitions that remain taken into the model.
-/

namespace ContractBindings

namespace Lowering

open Naming

/-- The name claimed for a definition: its title, or the last segment of its pointer. -/
def definitionBase (id : SchemaId) (node : SchemaNode) : String :=
  match node.title with
  | some title => pascalCaseOr title "Type"
  | none => pascalCaseOr (Pointer.lastSegment id.pointer) "Type"

/-- What naming the definitions has come to. -/
structure Naming where
  registry : Registry
  names : List (SchemaId × String)
  failed : List SchemaId
  diagnostics : List Diagnostic

/-- Names the definitions that have a canonical form, in order; the others fail. -/
def nameDefinitions (n : Naming) : List Definition → Naming
  | [] => n
  | d :: rest =>
    match d.node with
    | .ok node =>
      let (name, registry) := n.registry.claim (definitionBase d.id node)
      nameDefinitions { n with registry := registry, names := n.names ++ [(d.id, name)] } rest
    | .error e =>
      nameDefinitions
        { n with
          failed := d.id :: n.failed
          diagnostics := n.diagnostics ++ [Diagnostic.ofSchemaError d.id.pointer e] } rest

/-- The drafts of the definitions lowered so far, in order. -/
structure Drafts where
  registry : Registry
  failed : List SchemaId
  diagnostics : List Diagnostic
  drafts : List (SchemaId × Draft)

/-- Lowers the definitions that have a name, in order. -/
def lowerDefinitions (c : Context) (s : Drafts) : List Definition → Drafts
  | [] => s
  | d :: rest =>
    match d.node, c.names.lookup d.id with
    | .ok node, some name =>
      let unit := { c with failed := s.failed, unit := d.id.pointer, owner := some d.id }
      let (answer, draft) := ((lowerDefinition unit d.id name node).run).run (Draft.start s.registry)
      match answer with
      | .ok _ =>
        lowerDefinitions c { s with registry := draft.registry, drafts := s.drafts ++ [(d.id, draft)] } rest
      | .error diagnostic =>
        lowerDefinitions c
          { s with
            registry := draft.registry
            failed := d.id :: s.failed
            diagnostics := s.diagnostics ++ [diagnostic] } rest
    | _, _ => lowerDefinitions c s rest

/-- The first edge of a definition that leads to one that failed. -/
def brokenEdge (edges : Edges) (failed : List SchemaId) (id : SchemaId) : Option SchemaId :=
  (edges.of id).find? failed.contains

/-- One pass over the definitions: those with an edge to one that failed fail, too. -/
def spreadOnce (edges : Edges) (failed : List SchemaId) : List SchemaId → List SchemaId × List Diagnostic
  | [] => (failed, [])
  | id :: rest =>
    match (if failed.contains id then none else brokenEdge edges failed id) with
    | some broken =>
      let (failed, diagnostics) := spreadOnce edges (id :: failed) rest
      (failed, dependencySkipped id.pointer broken :: diagnostics)
    | none => spreadOnce edges failed rest

/-- Passes over the definitions until one changes nothing. Every pass but the last adds a failure. -/
def spread (edges : Edges) (ids : List SchemaId) : Nat → List SchemaId → List SchemaId × List Diagnostic
  | 0, failed => (failed, [])
  | fuel + 1, failed =>
    let (next, diagnostics) := spreadOnce edges failed ids
    if diagnostics.isEmpty then (next, [])
    else
      let (final, further) := spread edges ids fuel next
      (final, diagnostics ++ further)

/-- The model so far, with the registry and the names of nodes inside what it holds. -/
structure Assembly where
  registry : Registry
  inlineNames : List (SchemaId × String)
  model : Model

/-- Takes a draft into the model. -/
def Assembly.commit (a : Assembly) (d : Draft) : Assembly :=
  { a with
    inlineNames := d.inlineNames.reverse ++ a.inlineNames
    model := { a.model with
      types := a.model.types ++ d.types
      diagnostics := a.model.diagnostics ++ d.warnings } }

/-- Lowers the operations in order. -/
def lowerOperations (c : Context) (a : Assembly) : List Operation → Assembly
  | [] => a
  | o :: rest =>
    let unit := { c with inlineNames := a.inlineNames, unit := o.id, owner := none }
    let (answer, draft) := ((lowerOperation unit o).run).run (Draft.start a.registry)
    let a := { a with registry := draft.registry }
    match answer with
    | .ok operation =>
      let a := a.commit draft
      lowerOperations c
        { a with model := { a.model with operations := a.model.operations ++ [operation] } } rest
    | .error diagnostic =>
      lowerOperations c
        { a with model := { a.model with diagnostics := a.model.diagnostics ++ [diagnostic] } } rest

end Lowering

open Lowering

/-- The model of a schema graph and the operations that use it. -/
def Model.ofGraph (g : SchemaGraph) (operations : List Operation) (target : Target) (config : Config) : Model :=
  let edges : Edges := g.edges
  let n := nameDefinitions ⟨Naming.Registry.reserving target.capability.reserved, [], [], []⟩ g.definitions
  let c : Context :=
    ⟨g, target, config, g.definitions.map fun d => (d.id, Edges.reachable edges d.id), n.names, [], n.failed, "", none⟩
  let s := lowerDefinitions c ⟨n.registry, n.failed, n.diagnostics, []⟩ g.definitions
  let ids := s.drafts.map (·.1)
  let (failed, skipped) := spread edges ids (ids.length + 1) s.failed
  let kept := s.drafts.filter fun (id, _) => !failed.contains id
  let a : Assembly := ⟨s.registry, [], ⟨[], [], s.diagnostics ++ skipped⟩⟩
  let a := kept.foldl (fun a (_, draft) => a.commit draft) a
  (lowerOperations { c with failed := failed } a operations).model

end ContractBindings
