import ContractBindings.Document.Tree
import ContractBindings.Text.Quoted

/-!
# Metadata records

Parts of a contract that are read into records with fixed fields: a text, a text that may be left out, or a flag that is
off by default. Fields are read in document order and unknown ones ignored; after them a field that is required but
missing is an error. Tags on values are ignored, and null in place of a whole record is an empty one.
-/

namespace ContractBindings

/-- What a field of a record holds. -/
inductive FieldKind where
  | text
  | optionalText
  | flag
  deriving Repr, DecidableEq

/-- A field of a record. -/
structure FieldRule where
  name : String
  kind : FieldKind
  required : Bool
  deriving Repr, DecidableEq

/-- A record: its name in messages, and its fields. -/
structure RecordRule where
  name : String
  fields : List FieldRule
  deriving Repr, DecidableEq

/-- The value of a field that is present. -/
inductive FieldValue where
  | text (value : String)
  | flag (value : Bool)
  | absent
  deriving Repr, DecidableEq

/-- What was expected where something else was found. -/
inductive Expectation where
  | text
  | flag
  | fieldName
  | record (name : String)
  deriving Repr, DecidableEq

/-- Why a record cannot be read. -/
inductive MetadataError where
  | wrongType (found : Tree) (expected : Expectation)
  | repeated (field : String)
  | missing (field : String)
  deriving Repr

/-- How a message names a value that was found. -/
def Tree.found : Tree → String
  | .null => "unit value"
  | .bool b => "boolean `" ++ (if b then "true" else "false") ++ "`"
  | .int i => "integer `" ++ toString i ++ "`"
  | .float x => "floating point `" ++ x.pointed ++ "`"
  | .text s => "string " ++ Text.shown s
  | .sequence _ => "sequence"
  | .mapping _ => "map"
  | .tagged _ value => value.found

/-- How a message names what was expected. -/
def Expectation.phrase : Expectation → String
  | .text => "a string"
  | .flag => "a boolean"
  | .fieldName => "field identifier"
  | .record name => "struct " ++ name

/-- The message of an error. -/
def MetadataError.message : MetadataError → String
  | .wrongType found expected => "invalid type: " ++ found.found ++ ", expected " ++ expected.phrase
  | .repeated field => "duplicate field `" ++ field ++ "`"
  | .missing field => "missing field `" ++ field ++ "`"

/-- The fields of a record that are present. -/
abbrev Record := List (String × FieldValue)

namespace Record

/-- The text of a field, if it is present and not null. -/
def text? (r : Record) (field : String) : Option String :=
  match r.lookup field with
  | some (.text s) => some s
  | _ => none

/-- The value of a flag. -/
def flag (r : Record) (field : String) : Bool :=
  match r.lookup field with
  | some (.flag b) => b
  | _ => false

/-- The value of a field. Only a field that may be left out may be null. -/
def readField (kind : FieldKind) (tree : Tree) : Except MetadataError FieldValue :=
  let readText : Except MetadataError FieldValue :=
    match tree.untag with
    | .text s => .ok (.text s)
    | other => .error (.wrongType other .text)
  match kind with
  | .text => readText
  | .optionalText =>
    match tree with
    | .null => .ok .absent
    | _ => readText
  | .flag =>
    match tree.untag with
    | .bool b => .ok (.flag b)
    | other => .error (.wrongType other .flag)

/-- The fields among the entries of a mapping, after those already read. -/
def readEntries (fields : List FieldRule) (before : Record) : Entries → Except MetadataError Record
  | [] => .ok before
  | (key, value) :: rest =>
    match key.untag with
    | .text name =>
      match fields.find? (·.name == name) with
      | some field =>
        if (before.lookup name).isSome then .error (.repeated name)
        else do
          let value ← readField field.kind value
          readEntries fields (before ++ [(name, value)]) rest
      | none => readEntries fields before rest
    | other => .error (.wrongType other .fieldName)

/-- The record that a tree holds. -/
def read (rule : RecordRule) (tree : Tree) : Except MetadataError Record := do
  let entries ←
    match tree.untag with
    | .mapping entries => .ok entries
    | .null => .ok []
    | other => .error (.wrongType other (.record rule.name))
  let record ← readEntries rule.fields [] entries
  match rule.fields.find? fun field => field.required && (record.lookup field.name).isNone with
  | some field => .error (.missing field.name)
  | none => .ok record

end Record

end ContractBindings
