import ContractBindings.Diagnostic
import ContractBindings.Template.Rendering
import ContractBindings.Unit.Basic

/-!
# The templates of a target

Each target has a template for types and one for operations. A configuration may replace them by name; a name that no
target knows is ignored with a warning.
-/

namespace ContractBindings.Template

/-- The name of the template for the units of a kind. -/
def nameOf (target : Target) (kind : UnitKind) : String := target.name ++ "/" ++ kind.name

/-- All names of templates. -/
def names : List String :=
  [nameOf .rust .model, nameOf .rust .operation, nameOf .protobuf .model, nameOf .protobuf .operation]

/-- The first line of every unit, which names the contract. -/
def banner : String :=
  "// Generated by apigen\x7b% if title %\x7d from \x7b\x7b title \x7d\x7d"
    ++ "\x7b% if version %\x7d \x7b\x7b version \x7d\x7d\x7b% endif %\x7d\x7b% endif %\x7d. Do not edit.\n"

/-- The template that a target has without configuration. -/
def standard : Target → String
  | .rust =>
    banner ++ "#![allow(unused_imports, clippy::all)]\n\x7b\x7b imports \x7d\x7d\n\n"
      ++ "\x7b\x7b doc \x7d\x7d\x7b\x7b body \x7d\x7d"
  | .protobuf =>
    banner ++ "syntax = \"proto3\";\n\npackage \x7b\x7b package \x7d\x7d;\n\x7b\x7b imports \x7d\x7d\n"
      ++ "\x7b\x7b doc \x7d\x7d\x7b\x7b body \x7d\x7d"

/-- The template with a name, if the target has one of that name. -/
def select? (target : Target) (overrides : List (String × String)) (name : String) : Option String :=
  if name == nameOf target .model || name == nameOf target .operation then
    some ((overrides.lookup name).getD (standard target))
  else none

/-- The error of a fault in the template with a name. -/
def Fault.error (template : String) : Fault → UnitError
  | .undefined path => .undefinedVariable template path
  | .malformed => .malformedTemplate template

/-- Renders a template text under a name. -/
def renderText (name text : String) (values : List (String × String)) : Except UnitError String :=
  (substitute text values).mapError (Fault.error name)

/-- Renders the template with a name. -/
def render (target : Target) (overrides : List (String × String)) (name : String)
    (values : List (String × String)) : Except UnitError String :=
  match select? target overrides name with
  | some text => renderText name text values
  | none => .error (.unknownTemplate name)

/-- The warnings about configured templates with a name that no target knows. -/
def unknown (overrides : List (String × String)) : List Diagnostic :=
  (overrides.filter fun (name, _) => !names.contains name).map fun (name, _) =>
    Diagnostic.warning .template name ("unknown template `" ++ name ++ "` is ignored")

end ContractBindings.Template
