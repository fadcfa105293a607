import ContractBindings.Config
import ContractBindings.Naming.Words
import ContractBindings.Schema.Basic
import ContractBindings.Text.Blank

/-!
# Units of generated code

Every type and every operation of a model becomes one unit: a file under the output directory, in a folder for its kind
and named after what it holds. A fault in one unit leaves that unit out and no other. The messages of faults name the unit
or the template, without the words of a library.
-/

namespace ContractBindings

/-- What a unit holds. -/
inductive UnitKind where
  | model
  | operation
  deriving Repr, DecidableEq, Inhabited

/-- The name of a kind. -/
def UnitKind.name : UnitKind → String
  | .model => "model"
  | .operation => "operation"

/-- The folder for the units of a kind. -/
def UnitKind.folder : UnitKind → String
  | .model => "models"
  | .operation => "operations"

/-- The path of the unit for a type or operation, under the output directory. -/
def UnitKind.path (kind : UnitKind) (name : String) (target : Target) : String :=
  kind.folder ++ "/" ++ Naming.snakeCase name ++ "." ++ target.extension

/-- A generated file that is not yet written. -/
structure CodeUnit where
  name : String
  kind : UnitKind
  path : String
  text : String
  deriving Repr, DecidableEq, Inhabited

/-- The lines of a description, without blanks around it and at the end of each line. -/
def docLines (doc : Option String) : List String :=
  match doc with
  | some doc => (Text.lines (Text.trim doc)).map Text.trimEnd
  | none => []

/-- The description of an operation: its summary, and after an empty line what else is said of it. -/
def operationDoc (summary description : Option String) : String :=
  "\n\n".intercalate (summary.toList ++ description.toList)

/-! ## Why a unit is not generated -/

/-- What is wrong with the text of a unit. -/
inductive SourceFault where
  | unbalancedBraces
  | versionMissing
  /-- The text is no source file of the target. -/
  | notSource
  deriving Repr, DecidableEq

/-- Why a unit is not generated. -/
inductive UnitError where
  | unknownTemplate (name : String)
  | undefinedVariable (template path : String)
  | malformedTemplate (template : String)
  /-- A name or a type that the generated code cannot hold where it stands. -/
  | invalidToken
  /-- An infinite number, or what is no number, as a constant. -/
  | notFinite (literal : Literal)
  | invalidSource (unit : String) (fault : SourceFault)
  deriving Repr

/-- The words that follow the message about invalid source. -/
def SourceFault.detail : SourceFault → String
  | .unbalancedBraces => ": unbalanced braces"
  | .versionMissing => ": missing proto3 syntax declaration"
  | .notSource => ""

/-- The message of a unit error. -/
def UnitError.message : UnitError → String
  | .unknownTemplate name => "no template named `" ++ name ++ "`"
  | .undefinedVariable template path => "template `" ++ template ++ "` uses the undefined variable `" ++ path ++ "`"
  | .malformedTemplate template => "template `" ++ template ++ "` could not be rendered"
  | .invalidToken => "not a valid token sequence"
  | .notFinite literal =>
    "`" ++ literal.text ++ "` is not a valid token sequence: only finite numbers can be constants"
  | .invalidSource unit fault => "rendered `" ++ unit ++ "` is not valid source" ++ fault.detail

end ContractBindings
