import ContractBindings.Document.Metadata

/-!
# Failures of a run

Causes that end a whole run: nothing is generated when one of them arises.
-/

namespace ContractBindings

/-- The written form of a contract. -/
inductive Format where
  | yaml
  | json
  deriving Repr, DecidableEq, Inhabited

/-- The stages of a run, in order. -/
inductive Stage where
  | load
  | resolve
  | interpret
  | extract
  | map
  | render
  | write
  deriving Repr, DecidableEq, Inhabited

/-- The name of a stage. -/
def Stage.name : Stage → String
  | .load => "load"
  | .resolve => "resolve"
  | .interpret => "interpret"
  | .extract => "extract"
  | .map => "map"
  | .render => "render"
  | .write => "write"

/-- What is wrong with a part of the contract that must have a certain form. -/
inductive StructureFault where
  | rootNotMapping
  | pathsNotMapping
  | pathNotText
  | pathItemNotMapping
  | operationNotMapping
  | responsesNotMapping
  | metadata (error : MetadataError)
  deriving Repr

/-- The words for a structure fault. -/
def StructureFault.message : StructureFault → String
  | .rootNotMapping => "the document root must be a mapping"
  | .pathsNotMapping => "`paths` must be a mapping"
  | .pathNotText => "path keys must be strings"
  | .pathItemNotMapping => "a path item must be a mapping"
  | .operationNotMapping => "an operation must be a mapping"
  | .responsesNotMapping => "responses must be a mapping"
  | .metadata error => error.message

/-- Why a reference leads to no node. -/
inductive UnresolvedCause where
  | outsideDocument
  | loop
  | missing
  deriving Repr, DecidableEq

/-- The words for an unresolved reference's cause. -/
def UnresolvedCause.message : UnresolvedCause → String
  | .outsideDocument => "only references inside the document are supported"
  | .loop => "the reference chain loops without reaching a schema"
  | .missing => "no node at this pointer"

/-- A reference that cannot be resolved, with the pointer of the node that holds it. -/
structure Unresolved where
  reference : String
  holder : String
  cause : UnresolvedCause
  deriving Repr, DecidableEq

/-- The message about an unresolved reference. -/
def Unresolved.message (u : Unresolved) : String :=
  "reference `" ++ u.reference ++ "` at `" ++ u.holder ++ "` cannot be resolved: " ++ u.cause.message

/-- Why a file cannot be read or written. -/
inductive FileFault where
  | notFound
  | notADirectory
  | isADirectory
  | notText
  deriving Repr, DecidableEq

/-- Why a unit was not written. -/
inductive OutputFault where
  /-- The path leads out of the output directory. -/
  | escapes
  /-- The path was given as `path` for a second time. -/
  | producedTwice (path : String)
  | file (fault : FileFault)
  deriving Repr, DecidableEq

/-- A failure to write the generated files: the path at fault, and the files written before. -/
structure OutputError where
  path : String
  written : List String
  fault : OutputFault
  deriving Repr, DecidableEq

/-- The message about a failure to write. -/
def OutputError.message (e : OutputError) : String :=
  "could not write `" ++ e.path ++ "` (" ++ toString e.written.length ++ " file(s) written before the failure)"

/-- The words for an output fault that this library finds itself; file faults are the system's. -/
def OutputFault.text? : OutputFault → Option String
  | .escapes => some "path escapes the output directory"
  | .producedTwice path => some ("`" ++ path ++ "` is produced twice")
  | .file _ => none

/-- A cause that ends a run. -/
inductive Failure where
  /-- The text is no document of its format; JSON faults have a line. -/
  | unparsable (format : Format) (line : Option Nat)
  | malformed (pointer : String) (fault : StructureFault)
  | unresolved (reference : Unresolved)
  /-- Two operations derive one identifier. -/
  | duplicateOperation (identifier first second : String)
  | cancelled (stage : Stage)
  | unreadable (path : String) (fault : FileFault)
  /-- A bound for the depth of schemas was too small. -/
  | tooDeep
  | output (error : OutputError)
  deriving Repr

/-- The name of a format in messages. -/
def Format.name : Format → String
  | .yaml => "YAML"
  | .json => "JSON"

/-- The message of a failure. -/
def Failure.message : Failure → String
  | .unparsable format line =>
    "could not parse " ++ format.name ++ " document"
      ++ (match line with
        | some line => " at line " ++ toString line
        | none => "")
  | .malformed pointer fault => "invalid document structure at `" ++ pointer ++ "`: " ++ fault.message
  | .unresolved reference => reference.message
  | .duplicateOperation identifier first second =>
    "operations `" ++ first ++ "` and `" ++ second ++ "` both derive the identifier `" ++ identifier ++ "`"
  | .cancelled stage => "generation cancelled before the " ++ stage.name ++ " stage"
  | .unreadable path _ => "could not read `" ++ path ++ "`"
  | .tooDeep => "the schemas nest too deep"
  | .output error => error.message

end ContractBindings
