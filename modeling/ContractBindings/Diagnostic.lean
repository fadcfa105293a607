import ContractBindings.Schema.Basic

/-!
# Diagnostics

Conditions that are recorded during a run without ending it. A warning says that something is generated in a simpler
form, an error that a part of the contract is left out.
-/

namespace ContractBindings

/-- How grave a diagnostic is. -/
inductive Severity where
  | warning
  | error
  deriving Repr, DecidableEq, Inhabited

/-- The name of a severity. -/
def Severity.name : Severity → String
  | .warning => "warning"
  | .error => "error"

/-- The category of a diagnostic. -/
inductive DiagnosticCode where
  | incompatibleComposition
  | emptyEnumeration
  | unsupportedType
  | unknownShape
  | opaqueFallback
  | unionDowngraded
  | discriminatorDropped
  | containerDowngraded
  | unsupportedParameterLocation
  | invalidParameter
  | duplicateResponse
  | dependencySkipped
  | template
  deriving Repr, DecidableEq, Inhabited

/-- The name of a category. -/
def DiagnosticCode.name : DiagnosticCode → String
  | .incompatibleComposition => "incompatible_composition"
  | .emptyEnumeration => "empty_enumeration"
  | .unsupportedType => "unsupported_type"
  | .unknownShape => "unknown_shape"
  | .opaqueFallback => "opaque_fallback"
  | .unionDowngraded => "union_downgraded"
  | .discriminatorDropped => "discriminator_dropped"
  | .containerDowngraded => "container_downgraded"
  | .unsupportedParameterLocation => "unsupported_parameter_location"
  | .invalidParameter => "invalid_parameter"
  | .duplicateResponse => "duplicate_response"
  | .dependencySkipped => "dependency_skipped"
  | .template => "template"

/-- A recorded condition. The unit is the pointer of a schema or the identifier of an operation. -/
structure Diagnostic where
  severity : Severity
  code : DiagnosticCode
  unit : String
  message : String
  deriving Repr, DecidableEq, Inhabited

namespace Diagnostic

/-- A diagnostic of severity warning. -/
def warning (code : DiagnosticCode) (unit message : String) : Diagnostic := ⟨.warning, code, unit, message⟩

/-- A diagnostic of severity error. -/
def error (code : DiagnosticCode) (unit message : String) : Diagnostic := ⟨.error, code, unit, message⟩

/-- The category of a schema error. -/
def codeOf : SchemaError → DiagnosticCode
  | .incompatibleComposition .. => .incompatibleComposition
  | .emptyEnumeration _ => .emptyEnumeration
  | .unsupportedType .. => .unsupportedType

/-- The diagnostic for a unit that a schema error makes invalid. -/
def ofSchemaError (unit : String) (e : SchemaError) : Diagnostic := error (codeOf e) unit e.message

/-- The diagnostic is an error. -/
def isError (d : Diagnostic) : Bool := d.severity == .error

end Diagnostic

/-- The outcome of a run that came to its end. -/
inductive Status where
  | success
  /-- Everything was generated, some of it in a simpler form. -/
  | warnings
  /-- Something was left out. -/
  | incomplete
  deriving Repr, DecidableEq, Inhabited

/-- The name of an outcome. -/
def Status.name : Status → String
  | .success => "success"
  | .warnings => "warnings"
  | .incomplete => "partial"

/-- The outcome of a run with these diagnostics. -/
def Status.ofDiagnostics (diagnostics : List Diagnostic) : Status :=
  if diagnostics.any Diagnostic.isError then .incomplete
  else if diagnostics.isEmpty then .success
  else .warnings

/-- The exit code for an outcome. -/
def Status.exitCode : Status → Nat
  | .success => 0
  | .warnings => 2
  | .incomplete => 2

end ContractBindings
