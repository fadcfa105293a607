import ContractBindings.Document
import ContractBindings.Items.OfModel
import ContractBindings.Items.Text
import ContractBindings.Messages.Unit
import ContractBindings.Messages.OfModel
import ContractBindings.Template.Selection

/-!
# Rendering units

Every type and every operation of a model is rendered on its own: its code is written, put into the template of the
target, and the whole text is checked. A unit that fails is left out with a diagnostic and changes no other; the units
stand in the order of the model, types first.
-/

namespace ContractBindings

/-- The parts of a unit that its template puts together. -/
structure UnitParts where
  imports : String
  doc : String
  body : String
  deriving Repr, DecidableEq, Inhabited

namespace UnitParts

/-- What every Rust unit imports. -/
def rustImports : String := "use crate::models::*;"

/-- The parts of the unit for a type. -/
def ofType (t : TypeDef) : Target → Except UnitError UnitParts
  | .rust => do return ⟨rustImports, Items.docText t.doc, ← Items.text (Items.ofType t)⟩
  | .protobuf =>
    .ok ⟨Messages.importText (Messages.importedFiles t.name (Messages.descriptorsOfType t)), Messages.docText t.doc,
      (Messages.Declaration.ofType t).text⟩

/-- The parts of the unit for an operation. -/
def ofOperation (o : OperationDef) : Target → Except UnitError UnitParts
  | .rust => do
    return ⟨rustImports, Items.docText (some (operationDoc o.summary o.description)),
      ← Items.text (Items.ofOperation o)⟩
  | .protobuf =>
    .ok ⟨Messages.importText (Messages.importedFiles o.request (Messages.descriptorsOfOperation o)),
      Messages.docText (some (operationDoc o.summary o.description)), (Messages.Declaration.ofOperation o).text⟩

end UnitParts

namespace CodeUnit

/-- The fault of the text of a unit for a target. -/
def fault? (text : String) : Target → Option SourceFault
  | .rust => Items.fault? text
  | .protobuf => Messages.fault? text

/-- The values that a template finds: those of the unit, of the contract and of the configuration. -/
def templateValues (name : String) (info : Info) (config : Config) (parts : UnitParts) : List (String × String) :=
  [("name", name), ("title", info.title), ("version", info.version), ("package", config.package),
    ("imports", parts.imports), ("doc", parts.doc), ("body", parts.body)]

/-- The unit of a kind under a name, made of its parts. -/
def assemble (target : Target) (info : Info) (config : Config) (kind : UnitKind) (name : String)
    (parts : Except UnitError UnitParts) : Except Diagnostic CodeUnit :=
  let rendered : Except UnitError CodeUnit := do
    let text ← Template.render target config.templates (Template.nameOf target kind)
      (templateValues name info config (← parts))
    match fault? text target with
    | some fault => throw (.invalidSource name fault)
    | none => return ⟨name, kind, kind.path name target, text⟩
  rendered.mapError fun e => Diagnostic.error .template name e.message

/-- The unit of a type. -/
def ofType (target : Target) (info : Info) (config : Config) (t : TypeDef) : Except Diagnostic CodeUnit :=
  assemble target info config .model t.name (UnitParts.ofType t target)

/-- The unit of an operation. -/
def ofOperation (target : Target) (info : Info) (config : Config) (o : OperationDef) : Except Diagnostic CodeUnit :=
  assemble target info config .operation o.id (UnitParts.ofOperation o target)

/-- The outcomes for all types and operations of a model, in order. -/
def outcomes (target : Target) (info : Info) (config : Config) (m : Model) : List (Except Diagnostic CodeUnit) :=
  m.types.map (ofType target info config) ++ m.operations.map (ofOperation target info config)

/-- The units of a model, and the diagnostics for those that fail. -/
def ofModel (target : Target) (info : Info) (config : Config) (m : Model) : List CodeUnit × List Diagnostic :=
  let all := outcomes target info config m
  (all.filterMap fun
    | .ok unit => some unit
    | .error _ => none,
   all.filterMap fun
    | .ok _ => none
    | .error d => some d)

end CodeUnit

end ContractBindings
