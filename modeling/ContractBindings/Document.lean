import ContractBindings.Document.Pointer
import ContractBindings.Failure
import ContractBindings.Json.Reader
import ContractBindings.Yaml.Reader

/-!
# Contract documents

A contract text read into its tree, with the few parts that have a fixed form: the root and `paths` are mappings, and
`info` is a record.
-/

namespace ContractBindings

/-- The `info` record of a contract. -/
structure Info where
  title : String
  version : String
  description : Option String
  deriving Repr, DecidableEq, Inhabited

/-- The form of the `info` record. -/
def Info.rule : RecordRule :=
  ⟨"Info", [⟨"title", .text, false⟩, ⟨"version", .text, false⟩, ⟨"description", .optionalText, false⟩]⟩

/-- The `info` record that a tree holds. -/
def Info.read (tree : Tree) : Except MetadataError Info := do
  let record ← Record.read Info.rule tree
  return ⟨(record.text? "title").getD "", (record.text? "version").getD "", record.text? "description"⟩

/-- A contract document. -/
structure Document where
  info : Info
  root : Tree
  deriving Repr, Inhabited

namespace Document

/-- The format of a file by the end of its name: JSON after `.json` in any case of letters, YAML else. -/
def formatOf (path : String) : Format :=
  let parts := (Pointer.splitSlash path.toList).filter fun part => part != [] && part != ['.']
  let name := if parts.getLast? == some ['.', '.'] then [] else parts.getLastD []
  let afterDot := (name.reverse.takeWhile (· != '.')).reverse
  let hasExtension := afterDot.length + 1 < name.length
  if hasExtension && afterDot.map Char.toLower == ['j', 's', 'o', 'n'] then .json else .yaml

/-- The tree of a text in a format. -/
def tree (text : String) : Format → Except Failure Tree
  | .yaml => (Yaml.read? text).elim (.error (.unparsable .yaml none)) .ok
  | .json =>
    match Json.read text with
    | .ok tree => .ok tree
    | .error line => .error (.unparsable .json (some line))

/-- The document whose tree is given. -/
def ofTree (root : Tree) : Except Failure Document := do
  if root.asMapping?.isNone then throw (.malformed "#" .rootNotMapping)
  match root.get? "paths" with
  | some paths => if paths.asMapping?.isNone && !paths.isNull then throw (.malformed "#/paths" .pathsNotMapping)
  | none => pure ()
  let info ←
    match root.get? "info" with
    | some tree => (Info.read tree).mapError fun e => .malformed "#/info" (.metadata e)
    | none => pure ⟨"", "", none⟩
  return ⟨info, root⟩

/-- The document that a text holds. -/
def load (text : String) (format : Format) : Except Failure Document := do
  ofTree (← tree text format)

/-- The entries of `paths`. -/
def paths? (d : Document) : Option Entries := (d.root.get? "paths").bind Tree.asMapping?

/-- The entries of `components/schemas`. -/
def componentSchemas? (d : Document) : Option Entries :=
  ((d.root.get? "components").bind (·.get? "schemas")).bind Tree.asMapping?

end Document

end ContractBindings
