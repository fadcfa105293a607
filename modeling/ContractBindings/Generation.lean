import ContractBindings.Model.OfGraph
import ContractBindings.Operation.Extraction
import ContractBindings.Unit.Rendering

/-!
# Generation

A whole run from the text of a contract to its units. A document goes through its stages in order: its references are
checked, its component schemas are interpreted, its operations are extracted, and all of it is lowered to a model, which is
rendered. A run that is cancelled ends before the stage it is cancelled at, after every earlier stage has had its chance to
fail. The diagnostics about templates come first, then those of the operations, of the model and of the units.
-/

namespace ContractBindings

/-! ## The stages before rendering -/

/-- What a run generates for, with which choices, and the stage before which it is cancelled. -/
structure Generator where
  target : Target
  config : Config
  cancelled : Option Stage := none
  deriving Repr

/-- The failure of a run that an interpretation without result means. A schema error invalidates one definition alone
and ends no run; it has no failure of its own. -/
def InterpretError.failure : InterpretError → Failure
  | .unresolved u => .unresolved u
  | .schema _ | .tooDeep => .tooDeep

namespace Generator

/-- Passes unless the run is cancelled at the stage. -/
def checkpoint (g : Generator) (stage : Stage) : Except Failure Unit :=
  if g.cancelled == some stage then .error (.cancelled stage) else .ok ()

/-- The resolver of a document that holds no reference without a target. -/
def resolver (g : Generator) (d : Document) : Except Failure Resolver := do
  g.checkpoint .resolve
  match (Resolver.new d.root).checkAll with
  | (.ok _, r) => return r
  | (.error u, _) => throw (.unresolved u)

/-- The component definitions of a document. -/
def definitions (g : Generator) (r : Resolver) (d : Document) : Except Failure Slots := do
  g.checkpoint .interpret
  match ((Interpretation.components r d).run).run [] with
  | (.ok _, slots) => return slots
  | (.error e, _) => throw e.failure

/-- The operations of a document, with the definitions that it has and the diagnostics of building them. -/
def extraction (g : Generator) (d : Document) : Except Failure Extraction := do
  let r ← g.resolver d
  let slots ← g.definitions r d
  g.checkpoint .extract
  Extraction.run r g.config.operationNaming d slots

/-- The model of what was extracted. -/
def model (g : Generator) (e : Extraction) : Except Failure Model := do
  g.checkpoint .map
  return Model.ofGraph e.slots.graph e.operations g.target g.config

end Generator

/-! ## Runs -/

/-- What a run produced. -/
structure Generation where
  units : List CodeUnit
  diagnostics : List Diagnostic
  deriving Repr, DecidableEq, Inhabited

namespace Generation

/-- The outcome of a run. -/
def status (g : Generation) : Status := Status.ofDiagnostics g.diagnostics

end Generation

namespace Generator

/-- Generates from a document. -/
def ofDocument (g : Generator) (d : Document) : Except Failure Generation := do
  let extraction ← g.extraction d
  let model ← g.model extraction
  g.checkpoint .render
  let (units, rendering) := CodeUnit.ofModel g.target d.info g.config model
  return ⟨units, Template.unknown g.config.templates ++ extraction.diagnostics ++ model.diagnostics ++ rendering⟩

/-- Generates from the text of a contract. -/
def run (g : Generator) (text : String) (format : Format) : Except Failure Generation := do
  g.checkpoint .load
  g.ofDocument (← Document.load text format)

end Generator

end ContractBindings
