import ContractBindings.Config
import ContractBindings.Diagnostic
import ContractBindings.Naming.Words
import ContractBindings.Operation.Basic
import ContractBindings.Schema.Interpretation

/-!
# Extraction of operations

Walks the paths and methods of a contract in document order. An operation that cannot be built is left out with a
diagnostic; a fault of the document's structure, a reference that leads nowhere and an identifier that occurs twice end
the run.
-/

namespace ContractBindings

/-- Why one operation is not built. -/
inductive Rejection where
  | skip (diagnostic : Diagnostic)
  | abort (failure : Failure)

/-- What extraction has come to: the definitions opened so far, the diagnostics in order, the identifiers with what
derived them, and the operations in order. -/
structure Extraction where
  slots : Slots
  diagnostics : List Diagnostic
  labels : List (String × String)
  operations : List Operation
  deriving Inhabited

/-- The form of an operation's metadata. -/
def operationRule : RecordRule :=
  ⟨"RawOperation", [⟨"operationId", .optionalText, false⟩, ⟨"summary", .optionalText, false⟩,
    ⟨"description", .optionalText, false⟩, ⟨"deprecated", .flag, false⟩]⟩

/-- The form of a parameter's metadata. -/
def parameterRule : RecordRule :=
  ⟨"RawParameter", [⟨"name", .text, true⟩, ⟨"in", .text, true⟩, ⟨"required", .flag, false⟩,
    ⟨"description", .optionalText, false⟩]⟩

/-- The form of a request body's metadata. -/
def requestBodyRule : RecordRule :=
  ⟨"RawRequestBody", [⟨"description", .optionalText, false⟩, ⟨"required", .flag, false⟩]⟩

/-- The form of a response's metadata. -/
def responseRule : RecordRule := ⟨"RawResponse", [⟨"description", .optionalText, false⟩]⟩

namespace Extraction

/-- Nothing is extracted. -/
def empty : Extraction := ⟨[], [], [], []⟩

/-- Building one operation. -/
abbrev Build (α : Type) := ExceptT Rejection (StateM Extraction) α

/-- Ends the run with a structure fault. -/
def malformed (pointer : String) (fault : StructureFault) : Build α := throw (.abort (.malformed pointer fault))

/-- Leaves the operation out. -/
def skip (code : DiagnosticCode) (unit message : String) : Build α := throw (.skip (Diagnostic.error code unit message))

/-- The record that a tree holds; a fault ends the run. -/
def record (rule : RecordRule) (pointer : String) (tree : Tree) : Build Record :=
  match Record.read rule tree with
  | .ok record => return record
  | .error e => malformed pointer (.metadata e)

/-- The node of a schema of the operation `unit`. -/
def schema (r : Resolver) (unit : String) (tree : Tree) (pointer : String) : Build SchemaNode := do
  let state ← get
  let (answer, slots) := ((Interpretation.visit r tree ⟨pointer⟩).run).run state.slots
  set { state with slots := slots }
  match answer with
  | .ok node => return node
  | .error (.schema e) => throw (.skip (Diagnostic.ofSchemaError unit e))
  | .error (.unresolved e) => throw (.abort (.unresolved e))
  | .error .tooDeep => throw (.abort .tooDeep)

/-- The place where an entry really stands: a reference leads to a reusable component. -/
def follow (r : Resolver) (entry : Tree) (pointer : String) : Build (String × Tree) :=
  match (entry.get? "$ref").bind Tree.asText? with
  | some reference =>
    match r.find reference pointer with
    | .ok found => return (found.pointer, found.node)
    | .error e => throw (.abort (.unresolved e))
  | none => return (pointer, entry)

/-- The media type that the generated code uses, with its schema: JSON where it has a schema, else the first with one.
-/
def pickMedia (content : Entries) : Option (String × Tree) :=
  match (content.get? "application/json").bind (·.get? "schema") with
  | some schema => some ("application/json", schema)
  | none => content.findSome? fun (type, media) => do
    let type ← type.asText?
    let schema ← media.get? "schema"
    return (type, schema)

/-- The media type and schema of the content of an entry. -/
def media? (entry : Tree) : Option (String × Tree) := ((entry.get? "content").bind Tree.asMapping?).bind pickMedia

/-- The pointer of the schema of a media type. -/
def mediaPointer (pointer type : String) : String :=
  Pointer.child (Pointer.child (Pointer.child pointer "content") type) "schema"

/-- The parameter at a pointer. Parameters in the path are required. -/
def parameter (r : Resolver) (unit : String) (entry : Tree) (pointer : String) : Build Parameter := do
  let (pointer, entry) ← follow r entry pointer
  match Record.read parameterRule entry with
  | .error e => skip .invalidParameter unit ("invalid parameter at `" ++ pointer ++ "`: " ++ e.message)
  | .ok record =>
    let name := (record.text? "name").getD ""
    let place := (record.text? "in").getD ""
    match ParameterLocation.ofName? place with
    | none =>
      skip .unsupportedParameterLocation unit
        ("parameter `" ++ name ++ "` is sent in the unsupported location `" ++ place ++ "`")
    | some location =>
      let node ←
        match entry.get? "schema", media? entry with
        | some tree, _ => schema r unit tree (Pointer.child pointer "schema")
        | none, some (type, tree) => schema r unit tree (mediaPointer pointer type)
        | none, none => pure (SchemaNode.unknown ⟨Pointer.child pointer "schema"⟩)
      return ⟨name, location, record.flag "required" || location == .path, record.text? "description", node⟩

/-- Puts a parameter in the place of an earlier one with its name and location, else at the end. -/
def mergeParameter (p : Parameter) : List Parameter → List Parameter
  | [] => [p]
  | q :: rest => if q.name == p.name && q.location == p.location then p :: rest else q :: mergeParameter p rest

/-- The parameters of a list, merged into those before. -/
def parameterList (r : Resolver) (unit : String) (base : String) (before : List Parameter) :
    Option Tree → Build (List Parameter)
  | none => return before
  | some tree =>
    match tree.asSequence? with
    | none => skip .invalidParameter unit ("`" ++ base ++ "` must be a list")
    | some entries =>
      (Interpretation.indexed entries).foldlM (fun merged (index, entry) => do
        return mergeParameter (← parameter r unit entry (Pointer.child base (toString index))) merged) before

/-- The request body of an operation; one without a schema is none. -/
def requestBody (r : Resolver) (unit pointer : String) (entry : Tree) : Build (Option RequestBody) := do
  let (pointer, entry) ← follow r entry (Pointer.child pointer "requestBody")
  let record ← record requestBodyRule pointer entry
  match media? entry with
  | none => return none
  | some (type, tree) =>
    let node ← schema r unit tree (mediaPointer pointer type)
    return some ⟨type, record.flag "required", record.text? "description", node⟩

/-- The response at a pointer. -/
def response (r : Resolver) (unit : String) (entry : Tree) (pointer : String) : Build Response := do
  let (pointer, entry) ← follow r entry pointer
  let record ← record responseRule pointer entry
  match media? entry with
  | some (type, tree) =>
    let node ← schema r unit tree (mediaPointer pointer type)
    return ⟨record.text? "description", some type, some node⟩
  | none => return ⟨record.text? "description", none, none⟩

/-- Records a diagnostic. -/
def note (d : Diagnostic) : Build Unit := modify fun s => { s with diagnostics := s.diagnostics ++ [d] }

/-- The responses among the entries of a mapping, after those before. A status that is declared again keeps its place
and takes the later declaration. -/
def responses (r : Resolver) (unit base : String) (entries : Entries) : Build (List (String × Response)) :=
  entries.foldlM (fun before (key, entry) => do
    match key.keyText? with
    | none => return before
    | some key =>
      let status := normalizeStatus key
      let declared ← response r unit entry (Pointer.child base key)
      if (before.lookup status).isSome then
        note (Diagnostic.warning .duplicateResponse unit
          ("response `" ++ status ++ "` is declared more than once, the last declaration is used"))
      return upsert before status declared) []

/-- What an operation takes and gives. -/
structure Parts where
  parameters : List Parameter
  requestBody : Option RequestBody
  responses : List (String × Response)

/-- Builds the parts of an operation whose path declares the parameters `shared`. -/
def parts (r : Resolver) (unit pointer pathPointer : String) (node : Entries) (shared : Option Tree) :
    Build Parts := do
  let parameters ← parameterList r unit (Pointer.child pathPointer "parameters") [] shared
  let parameters ← parameterList r unit (Pointer.child pointer "parameters") parameters (node.get? "parameters")
  let body ←
    match node.get? "requestBody" with
    | some entry => requestBody r unit pointer entry
    | none => pure none
  let base := Pointer.child pointer "responses"
  let responses ←
    match node.get? "responses" with
    | some (.mapping declared) => responses r unit base declared
    | some .null | none => pure []
    | some _ => malformed base .responsesNotMapping
  return ⟨parameters, body, responses⟩

/-- Extraction as a whole. -/
abbrev Extract (α : Type) := ExceptT Failure (StateM Extraction) α

/-- Builds one operation; where it is left out, the diagnostic is recorded. -/
def attempt (build : Build Operation) : Extract Unit := do
  let (answer, state) := (build.run).run (← get)
  set state
  match answer with
  | .ok operation => modify fun s => { s with operations := s.operations ++ [operation] }
  | .error (.skip d) => modify fun s => { s with diagnostics := s.diagnostics ++ [d] }
  | .error (.abort failure) => throw failure

/-- The identifier of an operation. -/
def identifier (naming : OperationNaming) (method : Method) (path : String) (declared : Option String) : String :=
  match naming, declared with
  | .operationId, some declared => Naming.snakeCase declared
  | _, _ => pathIdentifier method path

/-- Extracts the operation of a method of a path. -/
def operation (r : Resolver) (naming : OperationNaming) (path pathPointer : String) (shared : Option Tree)
    (method : Method) (tree : Tree) : Extract Unit := do
  let pointer := Pointer.child pathPointer method.name
  match tree.asMapping? with
  | none => throw (.malformed pointer .operationNotMapping)
  | some node =>
    match Record.read operationRule (.mapping node) with
    | .error e => throw (.malformed pointer (.metadata e))
    | .ok record =>
      let id := identifier naming method path (record.text? "operationId")
      let label := method.capitalName ++ " " ++ path
      match (← get).labels.lookup id with
      | some first => throw (.duplicateOperation id first label)
      | none =>
        modify fun s => { s with labels := (id, label) :: s.labels }
        attempt do
          let parts ← parts r id pointer pathPointer node shared
          return ⟨id, method, path, record.text? "summary", record.text? "description", record.flag "deprecated",
            parts.parameters, parts.requestBody, parts.responses⟩

/-- Extracts the operations of a path. -/
def pathItem (r : Resolver) (naming : OperationNaming) (key item : Tree) : Extract Unit := do
  match key.asText? with
  | none => throw (.malformed "#/paths" .pathNotText)
  | some path =>
    let pointer := Pointer.child "#/paths" path
    match item with
    | .null => pure ()
    | .mapping entries =>
      entries.forM fun (name, tree) =>
        match name.asText?.bind Method.ofName? with
        | some method => operation r naming path pointer (Entries.get? entries "parameters") method tree
        | none => pure ()
    | _ => throw (.malformed pointer .pathItemNotMapping)

/-- Extracts the operations of a document. -/
def document (r : Resolver) (naming : OperationNaming) (d : Document) : Extract Unit :=
  (d.paths?.getD []).forM fun (key, item) => pathItem r naming key item

/-- The operations of a document with their diagnostics, after the given definitions. -/
def run (r : Resolver) (naming : OperationNaming) (d : Document) (slots : Slots) : Except Failure Extraction :=
  let (answer, state) := ((document r naming d).run).run { empty with slots := slots }
  answer.map fun _ => state

end Extraction

end ContractBindings
